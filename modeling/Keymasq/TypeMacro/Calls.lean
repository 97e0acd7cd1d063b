import Keymasq.TypeMacro.Balance

/-!
# Macro calls in the text of a type macro

The splitter and the tokenizer scan the text for tags on their own. Both leave the tags
behind a backslash alone, and where the tokenizer accepts the text they find the same calls.
-/

namespace Keymasq.TypeMacro.Calls
open Foundation Foundation.Strings Text

section Spans
variable [PyUnicode]

/-! ## The tokenizer with the text it reads -/

/-- A part of the text with the tokens it stands for. -/
structure Piece where
  text : List Char
  tokens : List Token

def Piece.isCall (piece : Piece) : Bool := piece.tokens.any (·.kind = .macroCall)

/- What `_type_macro_tokens` reads next, and how many characters after the first. -/
def nextPiece (c : Char) (rest : List Char) : Except String (Piece × Nat) :=
  if c = '\\' ∧ rest.head? = some '<' then .ok (⟨[c, '<'], [charToken '<']⟩, 1)
  else if c ≠ '<' then .ok (⟨[c], [charToken c]⟩, 0)
  else
    match tagBody rest with
    | none => .ok (⟨[c], [charToken c]⟩, 0)
    | some (body, n) =>
      match typeMacroControlTokens (strip (String.ofList body)) with
      | .error message => .error message
      | .ok (some controlTokens) => .ok (⟨c :: rest.take n, controlTokens⟩, n)
      | .ok none => .ok (⟨c :: rest.take n, (c :: rest.take n).map charToken⟩, n)

def piecesFrom (skip : Nat) : List Char → Except String (List Piece)
  | [] => .ok []
  | c :: rest =>
    match skip with
    | skip + 1 => piecesFrom skip rest
    | 0 =>
      match nextPiece c rest with
      | .error message => .error message
      | .ok (piece, n) => (piecesFrom n rest).map (piece :: ·)

def typeMacroPieces (text : List Char) : Except String (List Piece) := piecesFrom 0 text

theorem tokensFrom_cons (c : Char) (rest : List Char) :
    tokensFrom 0 (c :: rest) = match nextPiece c rest with
      | .error message => .error message
      | .ok (piece, n) => (tokensFrom n rest).map (piece.tokens ++ ·) := by
  by_cases hescape : c = '\\' ∧ rest.head? = some '<'
  · simp only [tokensFrom, nextPiece, if_pos hescape]
    rfl
  · by_cases hc : c ≠ '<'
    · simp only [tokensFrom, nextPiece, if_neg hescape, if_pos hc]
      rfl
    · simp only [tokensFrom, nextPiece, if_neg hescape, if_neg hc]
      cases tagBody rest with
      | none => rfl
      | some tag =>
        obtain ⟨body, n⟩ := tag
        simp only
        cases typeMacroControlTokens (strip (String.ofList body)) with
        | error message => rfl
        | ok controlTokens =>
          cases controlTokens with
          | none => rfl
          | some controlTokens => rfl

variable {rest : List Char}

theorem piecesFrom_cons_eq_ok {c : Char} {pieces : List Piece}
    (h : piecesFrom 0 (c :: rest) = .ok pieces) : ∃ piece n later,
      nextPiece c rest = .ok (piece, n) ∧ piecesFrom n rest = .ok later ∧
        pieces = piece :: later := by
  simp only [piecesFrom] at h
  split at h
  · cases h
  · next piece n hnext =>
    cases hlater : piecesFrom n rest with
    | error message =>
      rw [hlater] at h
      cases h
    | ok later =>
      rw [hlater] at h
      cases h
      exact ⟨piece, n, later, hnext, hlater, rfl⟩

theorem tokensFrom_eq (skip : Nat) (text : List Char) :
    tokensFrom skip text = (piecesFrom skip text).map (·.flatMap Piece.tokens) := by
  induction text generalizing skip with
  | nil => rfl
  | cons c rest ih =>
    cases skip with
    | succ skip => exact ih skip
    | zero =>
      rw [tokensFrom_cons, piecesFrom]
      cases nextPiece c rest with
      | error message => rfl
      | ok next =>
        obtain ⟨piece, n⟩ := next
        simp only [ih]
        cases piecesFrom n rest with
        | error message => rfl
        | ok later => rfl

/-- A piece takes the characters that the scan then skips. -/
theorem nextPiece_text {c : Char} {piece : Piece} {n : Nat}
    (h : nextPiece c rest = .ok (piece, n)) : piece.text = c :: rest.take n := by
  unfold nextPiece at h
  split at h
  · next hescape =>
    cases h
    obtain ⟨tail, hrest⟩ := List.head?_eq_some_iff.mp hescape.2
    rw [hrest]
    rfl
  · split at h
    · cases h
      rfl
    · split at h
      · cases h
        rfl
      · split at h
        · cases h
        · cases h
          rfl
        · cases h
          rfl

theorem pieces_text {skip : Nat} {text : List Char} {pieces : List Piece}
    (h : piecesFrom skip text = .ok pieces) : pieces.flatMap Piece.text = text.drop skip := by
  induction text generalizing skip pieces with
  | nil =>
    cases h
    exact List.drop_nil.symm
  | cons c rest ih =>
    cases skip with
    | succ skip => exact ih h
    | zero =>
      obtain ⟨piece, n, later, hnext, hlater, rfl⟩ := piecesFrom_cons_eq_ok h
      rw [List.flatMap_cons, nextPiece_text hnext, ih hlater, List.cons_append,
        List.take_append_drop]
      rfl

/-! ## Tags -/

omit [PyUnicode] in
/-- A tag ends with the bracket that closes it. -/
theorem tagBody_closed {body : List Char} {n : Nat} (h : tagBody rest = some (body, n)) :
    ∃ k, n = k + 1 ∧ rest[k]? = some '>' := by
  unfold tagBody at h
  obtain ⟨k, hk, heq⟩ := Option.map_eq_some_iff.mp h
  cases heq
  refine ⟨k, rfl, ?_⟩
  rw [List.idxOf?_eq_some_iff] at hk
  obtain ⟨hlt, hget, -⟩ := hk
  rw [List.getElem?_eq_getElem hlt, hget]

omit [PyUnicode] in
theorem isCall_charTokens (text : List Char) :
    Piece.isCall ⟨text, text.map charToken⟩ = false := by
  unfold Piece.isCall
  rw [List.any_map, List.any_eq_false]
  intro c _ h
  cases h

omit [PyUnicode] in
theorem mouseMoveControl_kind {tag : String} {token : Token}
    (h : parseTypeMacroMouseMoveControl tag = .ok (some token)) : token.kind = .mouseMove := by
  unfold parseTypeMacroMouseMoveControl at h
  split at h
  · split at h
    · split at h
      · cases h
      · split at h
        · cases h
        · split at h
          · cases h
          · cases h
            rfl
    · cases h
  · cases h

omit [PyUnicode] in
theorem mouseClickToken_kind {buttonCode : Int} {args : List String} {name : String}
    {token : Token} (h : typeMacroMouseClickToken buttonCode args name = .ok token) :
    token.kind = .mouseClick := by
  unfold typeMacroMouseClickToken at h
  split at h
  · cases h
    rfl
  · split at h
    · cases h
    · split at h
      · cases h
      · split at h
        · cases h
        · cases h
          rfl
  · cases h

omit [PyUnicode] in
theorem clickControl_kind {tag : String} {tokens : List Token}
    (h : parseTypeMacroClickControl tag = .ok (some tokens)) :
    ∀ token ∈ tokens, token.kind = .mouseClick := by
  unfold parseTypeMacroClickControl at h
  simp only at h
  split at h
  · split at h
    · cases h
    · next firstClick hclick =>
      cases h
      intro token htoken
      obtain rfl | rfl := List.mem_pair.mp htoken
      · exact mouseClickToken_kind hclick
      · rfl
  · split at h
    · cases h
    · split at h
      · cases h
      · next click hclick =>
        cases h
        intro token htoken
        rw [List.mem_singleton.mp htoken]
        exact mouseClickToken_kind hclick

/-- What a tag that is no macro call stands for. -/
theorem kind_of_not_call {rawTag : String} {tokens : List Token}
    (htag : isTypeMacroCallTag rawTag = false)
    (h : typeMacroControlTokens rawTag = .ok (some tokens)) :
    ∀ token ∈ tokens, token.kind ≠ .macroCall := by
  have hcall : parseTypeMacroCallControl rawTag = .ok none := by
    unfold parseTypeMacroCallControl
    rw [if_neg (by rw [htag]; exact Bool.false_ne_true)]
  unfold typeMacroControlTokens at h
  rw [hcall] at h
  simp only at h
  split at h
  · cases h
    intro token htoken
    rw [List.mem_singleton.mp htoken]
    exact TokenKind.noConfusion
  · split at h
    · cases h
      intro token htoken
      rw [List.mem_singleton.mp htoken]
      exact TokenKind.noConfusion
    · split at h
      · split at h
        · cases h
        · cases h
          intro token htoken
          rw [List.mem_singleton.mp htoken]
          exact TokenKind.noConfusion
      · split at h
        · cases h
        · next move hmove =>
          cases h
          intro token htoken
          rw [List.mem_singleton.mp htoken, mouseMoveControl_kind hmove]
          exact TokenKind.noConfusion
        · split at h
          · cases h
          · next clicks hclicks =>
            cases h
            intro token htoken
            rw [clickControl_kind hclicks token htoken]
            exact TokenKind.noConfusion
          · split at h
            · cases h
            · cases h
            · cases h
              intro token htoken
              rw [List.eq_of_mem_replicate htoken]
              exact TokenKind.noConfusion

/-- A macro call is read as its one token, or its name is missing. -/
theorem controlTokens_of_call {rawTag : String} (htag : isTypeMacroCallTag rawTag = true) :
    (∃ message, typeMacroControlTokens rawTag = .error message) ∨
      ∃ name, typeMacroControlTokens rawTag = .ok (some [⟨.macroCall, name⟩]) := by
  unfold typeMacroControlTokens parseTypeMacroCallControl
  rw [if_pos htag]
  simp only
  split
  · next message _ => exact .inl ⟨message, rfl⟩
  · next macroCall hcall =>
    split at hcall
    · cases hcall
    · cases hcall
      exact .inr ⟨_, rfl⟩
  · next hcall =>
    split at hcall
    · cases hcall
    · cases hcall

/-- A tag is read as a macro call exactly if the splitter takes it for one. -/
theorem isCall_controlTokens {rawTag : String} {tokens : List Token} (text : List Char)
    (h : typeMacroControlTokens rawTag = .ok (some tokens)) :
    Piece.isCall ⟨text, tokens⟩ = isTypeMacroCallTag rawTag := by
  cases htag : isTypeMacroCallTag rawTag with
  | false =>
    unfold Piece.isCall
    rw [List.any_eq_false]
    intro token htoken hkind
    exact kind_of_not_call htag h token htoken (of_decide_eq_true hkind)
  | true =>
    obtain ⟨message, hcontrol⟩ | ⟨name, hcontrol⟩ := controlTokens_of_call htag
    · rw [hcontrol] at h
      cases h
    · rw [hcontrol] at h
      cases h
      rfl

theorem not_callTag {rawTag : String} (h : typeMacroControlTokens rawTag = .ok none) :
    isTypeMacroCallTag rawTag = false := by
  cases htag : isTypeMacroCallTag rawTag with
  | false => rfl
  | true =>
    obtain ⟨message, hcontrol⟩ | ⟨name, hcontrol⟩ := controlTokens_of_call htag
    · rw [hcontrol] at h
      cases h
    · rw [hcontrol] at h
      cases h

/-! ## The splitter -/

theorem splitFrom_text (before : Option Char) (skip : Nat) (part text : List Char) :
    (splitFrom before skip part text).flatMap Prod.fst = part ++ text.drop skip := by
  induction text generalizing before skip part with
  | nil =>
    rw [List.drop_nil, List.append_nil]
    exact List.append_nil part
  | cons c rest ih =>
    cases skip with
    | succ skip => exact ih (some c) skip part
    | zero =>
      have hone : (splitFrom (some c) 0 (part ++ [c]) rest).flatMap Prod.fst =
          part ++ c :: rest := by
        rw [ih, List.append_assoc]
        rfl
      rw [List.drop_zero]
      simp only [splitFrom]
      split
      · cases tagBody rest with
        | none => exact hone
        | some tag =>
          obtain ⟨body, n⟩ := tag
          simp only
          split
          · rw [List.flatMap_cons, List.flatMap_cons, ih, List.nil_append, List.cons_append,
              List.take_append_drop]
          · rw [ih, List.append_assoc, List.cons_append, List.take_append_drop]
      · exact hone

theorem splitFrom_char {before : Option Char} {c : Char}
    (h : ¬ (c = '<' ∧ before ≠ some '\\')) (part rest : List Char) :
    splitFrom before 0 part (c :: rest) = splitFrom (some c) 0 (part ++ [c]) rest := by
  simp only [splitFrom, if_neg h]

theorem splitFrom_open {before : Option Char} (h : before ≠ some '\\') (part rest : List Char) :
    splitFrom before 0 part ('<' :: rest) =
      match tagBody rest with
      | none => splitFrom (some '<') 0 (part ++ ['<']) rest
      | some (body, n) =>
        if isTypeMacroCallTag (strip (String.ofList body)) then
          (part, false) :: ('<' :: rest.take n, true) :: splitFrom (some '<') n [] rest
        else splitFrom (some '<') n (part ++ '<' :: rest.take n) rest := by
  have hopens : '<' = '<' ∧ before ≠ some '\\' := ⟨rfl, h⟩
  rw [splitFrom]
  exact if_pos hopens

/-- Where the parts that are macro calls begin and end. -/
def callSpans (start : Nat) : List (List Char × Bool) → List (Nat × Nat)
  | [] => []
  | (part, isMacroCall) :: rest =>
    if isMacroCall then
      (start, start + part.length) :: callSpans (start + part.length) rest
    else callSpans (start + part.length) rest

def Piece.part (piece : Piece) : List Char × Bool := (piece.text, piece.isCall)

omit [PyUnicode] in
theorem callSpans_other {piece : Piece} (h : piece.isCall = false) (start : Nat)
    (parts : List (List Char × Bool)) :
    callSpans start (piece.part :: parts) = callSpans (start + piece.text.length) parts := by
  simp only [Piece.part, callSpans, h, Bool.false_eq_true, if_false]

omit [PyUnicode] in
theorem callSpans_call {piece : Piece} (h : piece.isCall = true) (start : Nat)
    (parts : List (List Char × Bool)) :
    callSpans start (piece.part :: parts) =
      (start, start + piece.text.length) :: callSpans (start + piece.text.length) parts := by
  simp only [Piece.part, callSpans, h, if_true]

/-! ## Both scans at one place -/

/- Splitter and tokenizer are between two tags, in the same tag, or behind the
backslash that both take for an escape. -/
inductive Aligned : Option Char → Nat → Nat → List Char → Prop
  | between {before : Option Char} {text : List Char}
      (h : ¬ (before = some '\\' ∧ text.head? = some '<')) : Aligned before 0 0 text
  | inTag {before : Option Char} {k : Nat} {text : List Char} (h : text[k]? = some '>') :
      Aligned before (k + 1) (k + 1) text
  | escaped {text : List Char} (h : text.head? = some '<') : Aligned (some '\\') 0 1 text

omit [PyUnicode] in
/-- Behind a character that is no backslash both are between two tags, or in one. -/
theorem aligned_skip {c : Char} {k : Nat} (h : (c :: rest)[k]? = some '>') :
    Aligned (some c) k k rest := by
  cases k with
  | zero =>
    cases h
    exact .between fun hescape => by cases hescape.1
  | succ k => exact .inTag h

omit [PyUnicode] in
theorem aligned_char {c : Char} (h : ¬ (c = '\\' ∧ rest.head? = some '<')) :
    Aligned (some c) 0 0 rest :=
  .between fun hescape => h ⟨Option.some.inj hescape.1, hescape.2⟩

/-- Both scans find the same macro calls in what is left of the text. -/
theorem callSpans_splitFrom {before : Option Char} {skip read start : Nat}
    {part text : List Char} {pieces : List Piece} (haligned : Aligned before skip read text)
    (hpieces : piecesFrom read text = .ok pieces) :
    callSpans start (splitFrom before skip part text) =
      callSpans (start + part.length + (read - skip)) (pieces.map Piece.part) := by
  induction text generalizing before skip read start part pieces with
  | nil =>
    cases hpieces
    rfl
  | cons c rest ih =>
    cases haligned with
    | inTag h =>
      have hrest := @ih _ _ _ start part _ (aligned_skip h) hpieces
      rw [Nat.sub_self] at hrest ⊢
      exact hrest
    | escaped h =>
      cases h
      have hchar : ¬ ('<' = '\\' ∧ rest.head? = some '<') := fun heq => by cases heq.1
      have hrest := @ih _ _ _ start (part ++ ['<']) _ (aligned_char hchar) hpieces
      rw [splitFrom_char (fun heq => heq.2 rfl), hrest, List.length_append]
      rfl
    | between h =>
      obtain ⟨piece, n, later, hnext, hlater, rfl⟩ := piecesFrom_cons_eq_ok hpieces
      have hone (hchar : ¬ (c = '\\' ∧ rest.head? = some '<'))
          (hpiece :
            (.ok (⟨[c], [charToken c]⟩, 0) : Except String (Piece × Nat)) = .ok (piece, n)) :
          callSpans start (splitFrom (some c) 0 (part ++ [c]) rest) =
            callSpans (start + part.length + (0 - 0)) (piece.part :: later.map Piece.part) := by
        cases hpiece
        have hcall : Piece.isCall ⟨[c], [charToken c]⟩ = false := isCall_charTokens [c]
        rw [ih (aligned_char hchar) hlater, callSpans_other hcall, List.length_append,
          ← Nat.add_assoc]
        rfl
      rw [List.map_cons]
      unfold nextPiece at hnext
      split at hnext
      · next hescape =>
        obtain ⟨rfl, hhead⟩ := hescape
        cases hnext
        have hcall : Piece.isCall ⟨['\\', '<'], [charToken '<']⟩ = false := rfl
        rw [splitFrom_char (fun heq => by cases heq.1), ih (.escaped hhead) hlater,
          callSpans_other hcall, List.length_append]
        rfl
      · next hescape =>
        split at hnext
        · next hc =>
          rw [splitFrom_char (fun heq => hc heq.1)]
          exact hone hescape hnext
        · next hc =>
          obtain rfl := not_not.mp hc
          rw [splitFrom_open (fun heq => h ⟨heq, rfl⟩)]
          split at hnext
          · exact hone hescape hnext
          · next body k hbody =>
            obtain ⟨last, rfl, hlast⟩ := tagBody_closed hbody
            split at hnext
            · cases hnext
            · next tokens hcontrol =>
              cases hnext
              have hcall := isCall_controlTokens ('<' :: rest.take (last + 1)) hcontrol
              split
              · next htag =>
                rw [htag] at hcall
                rw [callSpans_call hcall]
                simp only [callSpans, Bool.false_eq_true, if_false, if_true]
                rw [ih (.inTag hlast) hlater]
                simp only [Nat.sub_self, Nat.add_zero, List.length_nil]
              · next htag =>
                rw [Bool.not_eq_true] at htag
                rw [htag] at hcall
                rw [callSpans_other hcall, ih (.inTag hlast) hlater, List.length_append]
                simp only [Nat.sub_self, Nat.add_zero, Nat.add_assoc]
            · next hcontrol =>
              cases hnext
              have htag := not_callTag hcontrol
              rw [if_neg (by rw [htag]; exact Bool.false_ne_true),
                callSpans_other (isCall_charTokens _), ih (.inTag hlast) hlater,
                List.length_append]
              simp only [Nat.sub_self, Nat.add_zero, Nat.add_assoc]

/-! ## Escaped text -/

/- The text with a backslash before every bracket. -/
def escapeBrackets (text : List Char) : List Char :=
  text.flatMap fun c => if c = '<' then ['\\', '<'] else [c]

omit [PyUnicode] in
theorem head_escapeBrackets (text : List Char) :
    (escapeBrackets text).head? ≠ some '<' := by
  cases text with
  | nil =>
    intro h
    cases h
  | cons c text =>
    unfold escapeBrackets
    rw [List.flatMap_cons]
    split
    · intro h
      cases h
    · next hc =>
      intro h
      exact hc (Option.some.inj h)

theorem tokens_escapeBrackets (text : List Char) :
    typeMacroTokens (escapeBrackets text) = .ok (text.map charToken) := by
  unfold typeMacroTokens
  induction text with
  | nil => rfl
  | cons c text ih =>
    have hcons : escapeBrackets (c :: text) =
        (if c = '<' then ['\\', '<'] else [c]) ++ escapeBrackets text := List.flatMap_cons
    rw [hcons]
    split
    · next hc =>
      have htokens : tokensFrom 0 ('\\' :: '<' :: escapeBrackets text) =
          (tokensFrom 0 (escapeBrackets text)).map (charToken '<' :: ·) := rfl
      rw [List.cons_append, List.cons_append, List.nil_append, htokens, ih, hc]
      rfl
    · next hc =>
      have hescape : ¬ (c = '\\' ∧ (escapeBrackets text).head? = some '<') :=
        fun heq => head_escapeBrackets text heq.2
      have htokens : tokensFrom 0 (c :: escapeBrackets text) =
          (tokensFrom 0 (escapeBrackets text)).map (charToken c :: ·) := by
        simp only [tokensFrom, if_neg hescape, if_pos hc]
      rw [List.singleton_append, htokens, ih]
      rfl

/-! ## The agreement -/

/-- The parts make up the text, and where the tokenizer accepts it the parts that are macro
calls are the ones it reads as such; escaped text is read as its characters. -/
theorem splitter_agrees_with_tokenizer :
    (∀ text, (splitTypeMacroCalls text).flatMap Prod.fst = text) ∧
      (∀ text, typeMacroTokens text =
        (typeMacroPieces text).map (·.flatMap Piece.tokens)) ∧
      (∀ text pieces, typeMacroPieces text = .ok pieces →
        pieces.flatMap Piece.text = text ∧
          callSpans 0 (splitTypeMacroCalls text) = callSpans 0 (pieces.map Piece.part)) ∧
      ∀ text, typeMacroTokens (escapeBrackets text) = .ok (text.map charToken) := by
  refine ⟨splitFrom_text none 0 [], tokensFrom_eq 0, fun text pieces hpieces => ?_,
    tokens_escapeBrackets⟩
  have hbegin : Aligned none 0 0 text := .between fun h => by cases h.1
  exact ⟨pieces_text hpieces, callSpans_splitFrom hbegin hpieces⟩

end Spans

open Balance

/- A bracket behind a backslash and a call. -/
def escapedCall : List Char := "a\\<b<macro: x>".toList

theorem splitter_agrees_with_tokenizer_escapedCall :
    letI := asciiUnicode
    splitTypeMacroCalls escapedCall =
        [("a\\<b".toList, false), ("<macro: x>".toList, true), ([], false)] ∧
      ∃ pieces, typeMacroPieces escapedCall = .ok pieces ∧
        callSpans 0 (pieces.map Piece.part) = [(4, 14)] := by
  let := asciiUnicode
  have hsplit : splitTypeMacroCalls escapedCall =
      [("a\\<b".toList, false), ("<macro: x>".toList, true), ([], false)] := by decide
  have hpieces : typeMacroPieces escapedCall =
      .ok [⟨['a'], [charToken 'a']⟩, ⟨['\\', '<'], [charToken '<']⟩, ⟨['b'], [charToken 'b']⟩,
        ⟨"<macro: x>".toList, [⟨.macroCall, "x"⟩]⟩] := by rfl
  have hagree := (splitter_agrees_with_tokenizer.2.2.1 escapedCall _ hpieces).2
  rw [hsplit] at hagree
  exact ⟨hsplit, _, hpieces, hagree.symm⟩

/- A call without a name: the tokenizer refuses the text. -/
def namelessCall : List Char := "<macro:>".toList

theorem splitter_reports_nameless_call :
    letI := asciiUnicode
    callSpans 0 (splitTypeMacroCalls namelessCall) = [(0, 8)] ∧
      typeMacroTokens namelessCall = .error "macro control requires a macro name" := by
  let := asciiUnicode
  exact ⟨by decide, by rfl⟩

end Keymasq.TypeMacro.Calls
