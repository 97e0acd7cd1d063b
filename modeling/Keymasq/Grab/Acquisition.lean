import Keymasq.Grab.Tables

/-!
# How an acquisition goes

The requested paths that a grab tries, the state between two of them, and the three ways
it ends: it is finalized, rolled back after an error, or left by a cancellation.
-/

namespace Keymasq.Grab.Acquisition
open Foundation Transition Transactions Tables


variable {H P C M : Type} [DecidableEq H] [DecidableEq P]

/-- The paths that are tried with what they meet; an error or a cancellation is the last. -/
def attempts (t : Transaction H P C) (meets : GrabMeets P) : List P → List (P × Interface)
  | [] => []
  | p :: rest =>
    if claimed t p then attempts t meets rest
    else
      match meets.interface p with
      | .fails isOpen => [(p, .fails isOpen)]
      | .cancelled isOpen => [(p, .cancelled isOpen)]
      | .blocked => (p, .blocked) :: attempts t meets rest
      | .otherModel => (p, .otherModel) :: attempts t meets rest
      | .unmapped => (p, .unmapped) :: attempts t meets rest
      | .gone isOpen => (p, .gone isOpen) :: attempts t meets rest
      | .grabs exclusive => (p, .grabs exclusive) :: attempts t meets rest

/-- A device of another model whose clean-up failed. -/
def Leaked (tried : List (P × Interface)) : Prop := ∃ p, (p, Interface.gone true) ∈ tried

/-- The state between two paths: only the table of the hardware and the handles have
changed, by the new devices and by handles that were left open. -/
structure Midway (t : Transaction H P C) (meets : GrabMeets P) (s₀ s : State H P C M)
    (new : List (Device P)) (tried : List (P × Interface)) : Prop where
  same : s = { s₀ with grabbed := s.grabbed, handles := s.handles, nextDevice := s.nextDevice }
  table : ∀ h, devices s h = if h = t.hardware then t.existing ++ new else devices s₀ h
  first : s₀.nextDevice ≤ s.nextDevice
  ids : ∀ d ∈ new, s₀.nextDevice ≤ d.id ∧ d.id < s.nextDevice
  distinct : new.Pairwise fun d e => d.id ≠ e.id
  source : ∀ d ∈ new, ∃ exclusive, meets.interface d.path = .grabs exclusive ∧
    (d.path, .grabs exclusive) ∈ tried
  grabbed : ∀ p exclusive, (p, .grabs exclusive) ∈ tried → ∃ d ∈ new, d.path = p
  opened : ∀ d ∈ new, meets.interface d.path = .grabs true → d.id ∈ s.handles
  kept : ∀ id ∈ s₀.handles, id ∈ s.handles
  only : ∀ id ∈ s.handles, id ∈ s₀.handles ∨
    (∃ d ∈ new, d.id = id ∧ meets.interface d.path = .grabs true) ∨ Leaked tried
  leaked : Leaked tried → ∃ id, s₀.nextDevice ≤ id ∧ id < s.nextDevice ∧ id ∈ s.handles ∧
    ∀ d ∈ new, d.id ≠ id

variable {t : Transaction H P C} {meets : GrabMeets P} {s₀ s : State H P C M}
  {new : List (Device P)} {tried : List (P × Interface)} {i : Interface}

omit [DecidableEq P] in
theorem midway_start (hexisting : t.existing = devices s₀ t.hardware) :
    Midway t meets s₀ s₀ [] [] := by
  refine ⟨rfl, fun h => ?_, Nat.le_refl _, ?_, List.Pairwise.nil, ?_, ?_, ?_, fun _ hid => hid,
    fun _ hid => .inl hid, ?_⟩
  · rw [List.append_nil, hexisting]
    split
    · next heq => rw [heq]
    · rfl
  · intro d hd
    simp at hd
  · intro d hd
    simp at hd
  · intro p exclusive hmem
    simp at hmem
  · intro d hd
    simp at hd
  · intro hleaked
    obtain ⟨p, hp⟩ := hleaked
    simp at hp

variable [DecidableEq M]

omit [DecidableEq P] in
theorem leaked_append {p : P} (hi : i ≠ .gone true) :
    Leaked (tried ++ [(p, i)]) ↔ Leaked tried := by
  constructor
  · intro h
    obtain ⟨q, hq⟩ := h
    obtain hold | hnew := List.mem_append.mp hq
    · exact ⟨q, hold⟩
    · rw [List.mem_singleton] at hnew
      cases hnew
      exact absurd rfl hi
  · intro h
    obtain ⟨q, hq⟩ := h
    exact ⟨q, List.mem_append_left _ hq⟩

omit [DecidableEq M] [DecidableEq P] in
/-- A path that is skipped. -/
theorem Midway.skip (h : Midway t meets s₀ s new tried) {p : P} (hgone : i ≠ .gone true)
    (hgrabs : ∀ exclusive, i ≠ .grabs exclusive) :
    Midway t meets s₀ s new (tried ++ [(p, i)]) := by
  refine ⟨h.same, h.table, h.first, h.ids, h.distinct, fun d hd => ?_, fun q exclusive hq => ?_,
    h.opened, h.kept, fun id hid => ?_, fun hleaked => h.leaked ((leaked_append hgone).mp hleaked)⟩
  · obtain ⟨exclusive, hi, hmem⟩ := h.source d hd
    exact ⟨exclusive, hi, List.mem_append_left _ hmem⟩
  · obtain hold | hnew := List.mem_append.mp hq
    · exact h.grabbed q exclusive hold
    · rw [List.mem_singleton] at hnew
      cases hnew
      exact absurd rfl (hgrabs exclusive)
  · rw [leaked_append hgone]
    exact h.only id hid

omit [DecidableEq M] [DecidableEq P] in
/-- A device that went away, with its handle closed or left open. -/
theorem Midway.gone (h : Midway t meets s₀ s new tried) (p : P) (isOpen : Bool) :
    Midway t meets s₀ (openHandle s isOpen) new (tried ++ [(p, .gone isOpen)]) := by
  have hsame := h.same
  have hfirst := h.first
  refine ⟨?_, h.table, Nat.le_succ_of_le h.first, fun d hd => ?_, h.distinct, fun d hd => ?_,
    fun q exclusive hq => ?_, fun d hd hi => ?_, fun id hid => ?_, fun id hid => ?_,
    fun hleaked => ?_⟩
  · rw [hsame]
    rfl
  · obtain ⟨hlow, hhigh⟩ := h.ids d hd
    exact ⟨hlow, Nat.lt_succ_of_lt hhigh⟩
  · obtain ⟨exclusive, hi, hmem⟩ := h.source d hd
    exact ⟨exclusive, hi, List.mem_append_left _ hmem⟩
  · obtain hold | hnew := List.mem_append.mp hq
    · exact h.grabbed q exclusive hold
    · rw [List.mem_singleton] at hnew
      cases hnew
  · have hopened := h.opened d hd hi
    cases isOpen with
    | false => exact hopened
    | true => exact Finset.mem_insert_of_mem hopened
  · have hkept := h.kept id hid
    cases isOpen with
    | false => exact hkept
    | true => exact Finset.mem_insert_of_mem hkept
  · cases isOpen with
    | false =>
      rw [leaked_append (by simp)]
      exact h.only id hid
    | true => exact .inr (.inr ⟨p, List.mem_append_right _ List.mem_cons_self⟩)
  · cases isOpen with
    | false =>
      obtain ⟨id, hlow, hhigh, hid, hnew⟩ := h.leaked ((leaked_append (by simp)).mp hleaked)
      exact ⟨id, hlow, Nat.lt_succ_of_lt hhigh, hid, hnew⟩
    | true =>
      refine ⟨s.nextDevice, h.first, Nat.lt_succ_self _, Finset.mem_insert_self _ _, ?_⟩
      intro d hd heq
      have hhigh := (h.ids d hd).2
      omega

omit [DecidableEq P] [DecidableEq M] in
/-- A device that is grabbed. -/
theorem Midway.grab (h : Midway t meets s₀ s new tried) {p : P} {exclusive : Bool}
    (hi : meets.interface p = .grabs exclusive) :
    Midway t meets s₀ (openHandle (storeGrabbedDevices s t.hardware
      (t.existing ++ (new ++ [{ id := s.nextDevice, path := p }]))) exclusive)
      (new ++ [{ id := s.nextDevice, path := p }]) (tried ++ [(p, .grabs exclusive)]) := by
  have hsame := h.same
  refine ⟨?_, fun h' => ?_, Nat.le_succ_of_le h.first, fun d hd => ?_, ?_, fun d hd => ?_,
    fun q e hq => ?_, fun d hd hd' => ?_, fun id hid => ?_, fun id hid => ?_, fun hleaked => ?_⟩
  · rw [hsame]
    rfl
  · have htable := h.table h'
    change devices (storeGrabbedDevices s t.hardware _) h' = _
    rw [devices_store]
    split
    · rfl
    · next hne => rw [htable, if_neg hne]
  · obtain hold | hnew := List.mem_append.mp hd
    · obtain ⟨hlow, hhigh⟩ := h.ids d hold
      exact ⟨hlow, Nat.lt_succ_of_lt hhigh⟩
    · rw [List.mem_singleton] at hnew
      rw [hnew]
      exact ⟨h.first, Nat.lt_succ_self _⟩
  · rw [List.pairwise_append]
    refine ⟨h.distinct, List.pairwise_singleton _ _, fun d hd e he => ?_⟩
    rw [List.mem_singleton] at he
    have hhigh := (h.ids d hd).2
    rw [he]
    exact Nat.ne_of_lt hhigh
  · obtain hold | hnew := List.mem_append.mp hd
    · obtain ⟨e, he, hmem⟩ := h.source d hold
      exact ⟨e, he, List.mem_append_left _ hmem⟩
    · rw [List.mem_singleton] at hnew
      rw [hnew]
      exact ⟨exclusive, hi, List.mem_append_right _ List.mem_cons_self⟩
  · obtain hold | hnew := List.mem_append.mp hq
    · obtain ⟨d, hd, hpath⟩ := h.grabbed q e hold
      exact ⟨d, List.mem_append_left _ hd, hpath⟩
    · rw [List.mem_singleton] at hnew
      cases hnew
      exact ⟨_, List.mem_append_right _ List.mem_cons_self, rfl⟩
  · obtain hold | hnew := List.mem_append.mp hd
    · have hopened := h.opened d hold hd'
      cases exclusive with
      | false => exact hopened
      | true => exact Finset.mem_insert_of_mem hopened
    · rw [List.mem_singleton] at hnew
      rw [hnew] at hd' ⊢
      rw [hi] at hd'
      cases hd'
      exact Finset.mem_insert_self _ _
  · have hkept := h.kept id hid
    cases exclusive with
    | false => exact hkept
    | true => exact Finset.mem_insert_of_mem hkept
  · have hold (hid : id ∈ s.handles) : id ∈ s₀.handles ∨
        (∃ d ∈ new ++ [({ id := s.nextDevice, path := p } : Device P)], d.id = id ∧
          meets.interface d.path = .grabs true) ∨ Leaked (tried ++ [(p, .grabs exclusive)]) := by
      obtain hstart | ⟨d, hd, hd'⟩ | hleaked := h.only id hid
      · exact .inl hstart
      · exact .inr (.inl ⟨d, List.mem_append_left _ hd, hd'⟩)
      · exact .inr (.inr ((leaked_append (by simp)).mpr hleaked))
    cases exclusive with
    | false => exact hold hid
    | true =>
      obtain hnew | hprior := mem_openHandle hid
      · exact .inr (.inl ⟨_, List.mem_append_right _ List.mem_cons_self, hnew.symm, hi⟩)
      · exact hold hprior
  · obtain ⟨id, hlow, hhigh, hid, hnew⟩ := h.leaked ((leaked_append (by simp)).mp hleaked)
    refine ⟨id, hlow, Nat.lt_succ_of_lt hhigh, ?_, fun d hd => ?_⟩
    · cases exclusive with
      | false => exact hid
      | true => exact Finset.mem_insert_of_mem hid
    · obtain hold | hlast := List.mem_append.mp hd
      · exact hnew d hold
      · rw [List.mem_singleton] at hlast
        rw [hlast]
        exact fun heq => absurd hhigh (by simp [← heq])

/-! ## The ways an acquisition ends -/

/-- No attempt ended with an error or a cancellation. -/
def Unbroken (tried : List (P × Interface)) : Prop :=
  ∀ p isOpen, (p, Interface.fails isOpen) ∉ tried ∧ (p, Interface.cancelled isOpen) ∉ tried

/-- An interface of the model was there. -/
def Available (tried : List (P × Interface)) : Prop :=
  ∃ p, (p, Interface.unmapped) ∈ tried ∨ ∃ exclusive, (p, Interface.grabs exclusive) ∈ tried

inductive Ends (modelKey : H → Option M) (t : Transaction H P C) (meets : GrabMeets P)
    (s : State H P C M) (new : List (Device P)) (tried all : List (P × Interface)) :
    State H P C M × Ended → Prop
  | finalized (available : Nat) (hall : all = tried) (hthere : available ≠ 0 → Available tried) :
      Ends modelKey t meets s new tried all (finalizeGrab modelKey s t meets.finish new available)
  | rolledBack (p : P) (isOpen : Bool) (hall : all = tried ++ [(p, .fails isOpen)]) :
      Ends modelKey t meets s new tried all
        (rollbackFailedGrab (openHandle s isOpen) t meets.rollback new, .raised)
  | left (p : P) (isOpen : Bool) (hall : all = tried ++ [(p, .cancelled isOpen)]) :
      Ends modelKey t meets s new tried all (openHandle s isOpen, .raised)

omit [DecidableEq P] in
theorem Unbroken.append {p : P} (h : Unbroken tried)
    (hi : ∀ isOpen, i ≠ .fails isOpen ∧ i ≠ .cancelled isOpen) : Unbroken (tried ++ [(p, i)]) := by
  intro q isOpen
  refine ⟨fun hq => ?_, fun hq => ?_⟩
  · obtain hold | hnew := List.mem_append.mp hq
    · exact (h q isOpen).1 hold
    · rw [List.mem_singleton] at hnew
      cases hnew
      exact (hi isOpen).1 rfl
  · obtain hold | hnew := List.mem_append.mp hq
    · exact (h q isOpen).2 hold
    · rw [List.mem_singleton] at hnew
      cases hnew
      exact (hi isOpen).2 rfl

omit [DecidableEq P] in
theorem Available.append (h : Available tried) (last : List (P × Interface)) :
    Available (tried ++ last) := by
  obtain ⟨p, hp | ⟨exclusive, hp⟩⟩ := h
  · exact ⟨p, .inl (List.mem_append_left _ hp)⟩
  · exact ⟨p, .inr ⟨exclusive, List.mem_append_left _ hp⟩⟩

theorem acquire_cases (modelKey : H → Option M) (h : Midway t meets s₀ s new tried)
    (hunbroken : Unbroken tried) (available : Nat) (hthere : available ≠ 0 → Available tried)
    (paths : List P) :
    ∃ s' new' tried', Midway t meets s₀ s' new' tried' ∧ Unbroken tried' ∧
      Ends modelKey t meets s' new' tried' (tried ++ attempts t meets paths)
        (acquire modelKey t meets s new available paths) := by
  induction paths generalizing s new tried available with
  | nil => exact ⟨s, new, tried, h, hunbroken, .finalized available (List.append_nil _) hthere⟩
  | cons p rest ih =>
    unfold acquire attempts
    split
    · exact ih h hunbroken available hthere
    · cases hi : meets.interface p with
      | blocked =>
        have hnext := ih (h.skip (p := p) (i := .blocked) (by simp) (by simp))
          (hunbroken.append (by simp)) available fun hpos => (hthere hpos).append _
        rwa [List.append_assoc] at hnext
      | otherModel =>
        have hnext := ih (h.skip (p := p) (i := .otherModel) (by simp) (by simp))
          (hunbroken.append (by simp)) available fun hpos => (hthere hpos).append _
        rwa [List.append_assoc] at hnext
      | unmapped =>
        have hnext := ih (h.skip (p := p) (i := .unmapped) (by simp) (by simp))
          (hunbroken.append (by simp)) (available + 1)
          fun _ => ⟨p, .inl (List.mem_append_right _ List.mem_cons_self)⟩
        rwa [List.append_assoc] at hnext
      | gone isOpen =>
        have hnext := ih (h.gone p isOpen) (hunbroken.append (by simp)) available
          fun hpos => (hthere hpos).append _
        rwa [List.append_assoc] at hnext
      | grabs exclusive =>
        have hnext := ih (h.grab hi) (hunbroken.append (by simp)) (available + 1)
          fun _ => ⟨p, .inr ⟨exclusive, List.mem_append_right _ List.mem_cons_self⟩⟩
        rwa [List.append_assoc] at hnext
      | fails isOpen => exact ⟨s, new, tried, h, hunbroken, .rolledBack p isOpen rfl⟩
      | cancelled isOpen => exact ⟨s, new, tried, h, hunbroken, .left p isOpen rfl⟩

/-- An acquisition from its start. -/
theorem acquire_ends (modelKey : H → Option M) (h : Midway t meets s₀ s₀ [] []) (paths : List P) :
    ∃ s' new tried, Midway t meets s₀ s' new tried ∧ Unbroken tried ∧
      Ends modelKey t meets s' new tried (attempts t meets paths)
        (acquire modelKey t meets s₀ [] 0 paths) :=
  acquire_cases modelKey h (fun _ _ => ⟨List.not_mem_nil, List.not_mem_nil⟩) 0
    (fun hpos => absurd rfl hpos) paths

end Keymasq.Grab.Acquisition
