import Keymasq.Session.Channel

/-!
# Skipping unchanged payloads

An update is skipped when the last signature that was sent is its own. The
signature is stored with the acknowledgement, so it speaks for the daemon as
long as no later command of the same target ends without one.
-/

namespace Keymasq.Session.Skipping
open Foundation Foundation.Transition References Apply Channel

variable {Content S : Type} {ser : Serializer Content S} {x y : System Content S} {t : Owner}
  {q : Request Content}

/- The command changes what the daemon has installed for the target. -/
def concerns (t : Owner) : Command Content → Bool
  | .set payload => payload.target = t
  | .releaseDevice hardwareId => Owner.device hardwareId = t
  | .unusedExecRefs _ => false

def acknowledgedId (x : System Content S) (t : Owner) : ℕ := x.acknowledged.getD t 0

/-- A later command of the target still waits for its answer. -/
def later (x : System Content S) (t : Owner) (requestId : ℕ) : Bool :=
  (x.applies.any fun a => a.payload.target = t ∧ requestId < a.payload.requestId) ||
    x.release.any fun r => Owner.device r.hardwareId = t ∧ requestId < r.requestId

/-- The daemon still has the payload it acknowledged last, and no command can change that. -/
def untouched (x : System Content S) (t : Owner) : Bool :=
  ((x.installed.get? t).any fun p => x.acknowledged.get? t = some p.requestId) &&
    x.requests.all fun q => !concerns t q.command

/- The apply ends with this answer, but without an acknowledgement. -/
def settleAbandons (x : System Content S) (a : PendingApply Content) (verdict : Verdict) :
    Option (ℕ × Owner) :=
  match verdict, a.payload.target with
  | .error, t => some (a.payload.requestId, t)
  | .waiting, .device hardwareId =>
    if x.overtaken hardwareId a.deviceRequest then
      some (a.payload.requestId, .device hardwareId)
    else none
  | _, t => if x.isCurrent a then none else some (a.payload.requestId, t)

/- The command whose apply or release ends without an acknowledgement. -/
def abandons (x : System Content S) : Op Content → Option (ℕ × Owner)
  | .begin => x.release.map fun r => (r.requestId, .device r.hardwareId)
  | .answered response =>
    match x.applyOf response.requestId with
    | some a => settleAbandons x a response.verdict
    | none =>
      match x.releaseOf response.requestId with
      | some r =>
        if response.verdict = .error then some (r.requestId, .device r.hardwareId) else none
      | none => none
  | .timedOut requestId =>
    match x.applyOf requestId with
    | some a =>
      if a.payload.target ≠ .combos ∧ x.isCurrent a then none
      else some (a.payload.requestId, a.payload.target)
    | none => (x.releaseOf requestId).map fun r => (r.requestId, .device r.hardwareId)
  | _ => none

/-- A command may end without an acknowledgement only when no signature is stored for its
target, when it is older than the stored one, when a later one is under way, or when the daemon
has not been touched since. -/
def mayEnd (x : System Content S) (requestId : ℕ) (t : Owner) : Bool :=
  (x.lastSentSignatures.get? t).isNone || decide (requestId ≤ acknowledgedId x t) ||
    later x t requestId || untouched x t

def acknowledgedInOrder (x : System Content S) (op : Op Content) : Bool :=
  (abandons x op).all fun e => mayEnd x e.1 e.2

/-- What the stored signatures say about the daemon. -/
structure Faithful (ser : Serializer Content S) (x : System Content S) : Prop where
  ordered : Ordered x
  generations : ∀ a ∈ x.applies, a.generation ≤ x.applyGeneration
  newest : ∀ a ∈ x.applies, x.isCurrent a = true →
    (∀ q ∈ x.requests, ∀ t, concerns t q.command = true → q.requestId ≤ a.payload.requestId)
  taken : ∀ r ∈ x.responses, r.verdict = .ok → ∀ a ∈ x.applies,
    a.payload.requestId = r.requestId → x.isCurrent a = true →
    x.installed.get? a.payload.target = some a.payload
  signed : ∀ t s p, x.lastSentSignatures.get? t = some s → x.installed.get? t = some p →
    x.acknowledged.get? t = some p.requestId → ser.signature p.content = s
  settled : ∀ t s, x.lastSentSignatures.get? t = some s →
    later x t (acknowledgedId x t) = true ∨ untouched x t = true

theorem faithful_start : Faithful ser {} := by
  refine ⟨ordered_start, ?_, ?_, ?_, ?_, ?_⟩
  · exact fun a ha => absurd ha List.not_mem_nil
  · exact fun a ha => absurd ha List.not_mem_nil
  · exact fun r hr => absurd hr List.not_mem_nil
  · exact fun t s p hs => absurd hs (by simp)
  · exact fun t s hs => absurd hs (by simp)

/-! ## Later commands -/

theorem later_iff {n : ℕ} : later x t n = true ↔
    (∃ a ∈ x.applies, a.payload.target = t ∧ n < a.payload.requestId) ∨
      ∃ r, x.release = some r ∧ Owner.device r.hardwareId = t ∧ n < r.requestId := by
  unfold later
  rw [Bool.or_eq_true, List.any_eq_true, Option.any_eq_true]
  simp only [decide_eq_true_eq]

theorem untouched_iff : untouched x t = true ↔
    (∃ p, x.installed.get? t = some p ∧ x.acknowledged.get? t = some p.requestId) ∧
      ∀ q ∈ x.requests, concerns t q.command = false := by
  unfold untouched
  rw [Bool.and_eq_true, Option.any_eq_true, List.all_eq_true]
  simp only [decide_eq_true_eq, Bool.not_eq_true']

theorem acknowledgedId_le (h : Ordered x) (t : Owner) :
    acknowledgedId x t ≤ x.requestCounter := by
  unfold acknowledgedId Dict.getD
  cases hack : x.acknowledged.get? t with
  | none => exact Nat.zero_le _
  | some n => exact (h.acknowledged t n hack).1

/-- A target keeps its standing when its later commands and its acknowledgement stay. -/
theorem later_mono {n : ℕ} (h : later x t n = true)
    (ha : ∀ a ∈ x.applies, a.payload.target = t → n < a.payload.requestId → a ∈ y.applies)
    (hr : ∀ r, x.release = some r → Owner.device r.hardwareId = t → n < r.requestId →
      y.release = some r) : later y t n = true := by
  rw [later_iff] at h ⊢
  rcases h with ⟨a, hmem, htarget, hlt⟩ | ⟨r, hrelease, htarget, hlt⟩
  · exact Or.inl ⟨a, ha a hmem htarget hlt, htarget, hlt⟩
  · exact Or.inr ⟨r, hr r hrelease htarget hlt, htarget, hlt⟩

/-- When a command ends that may end, its target is still accounted for. -/
theorem settled_of_mayEnd {requestId : ℕ} {s : S} (hs : x.lastSentSignatures.get? t = some s)
    (hguard : mayEnd x requestId t = true)
    (h : later x t (acknowledgedId x t) = true ∨ untouched x t = true)
    (ha : ∀ a ∈ x.applies, a.payload.requestId ≠ requestId → a ∈ y.applies)
    (hr : ∀ r, x.release = some r → r.requestId ≠ requestId → y.release = some r)
    (hack : acknowledgedId y t = acknowledgedId x t)
    (huntouched : untouched x t = true → untouched y t = true) :
    later y t (acknowledgedId y t) = true ∨ untouched y t = true := by
  rw [hack]
  unfold mayEnd at hguard
  rw [hs] at hguard
  simp only [Option.isNone_some, Bool.false_or, Bool.or_eq_true, decide_eq_true_eq] at hguard
  rcases h with hlater | hstill
  · by_cases hle : requestId ≤ acknowledgedId x t
    · left
      refine later_mono hlater (fun a hmem _ hlt => ha a hmem ?_) (fun r hrel _ hlt => hr r hrel ?_)
      · omega
      · omega
    · rcases hguard with (hguard | hguard) | hguard
      · exact absurd hguard hle
      · have hkept : later y t requestId = true := by
          refine later_mono hguard (fun a hmem _ hlt => ha a hmem ?_)
            (fun r hrel _ hlt => hr r hrel ?_)
          · omega
          · omega
        rw [later_iff] at hkept
        left
        rw [later_iff]
        rcases hkept with ⟨a, hmem, htarget, hlt⟩ | ⟨r, hrel, htarget, hlt⟩
        · exact Or.inl ⟨a, hmem, htarget, by omega⟩
        · exact Or.inr ⟨r, hrel, htarget, by omega⟩
      · exact Or.inr (huntouched hguard)
  · exact Or.inr (huntouched hstill)

/-! ## What the session does alone -/

/-- Nothing the invariant speaks of changes, except that signatures are forgotten. -/
theorem Faithful.forget (h : Faithful ser x) (hord : Ordered y)
    (hg : y.applyGeneration = x.applyGeneration) (ha : y.applies = x.applies)
    (hr : y.release = x.release) (hq : y.requests = x.requests)
    (hresp : y.responses ⊆ x.responses) (hi : y.installed = x.installed)
    (hack : y.acknowledged = x.acknowledged)
    (hsig : ∀ t s, y.lastSentSignatures.get? t = some s →
      x.lastSentSignatures.get? t = some s) : Faithful ser y := by
  have hcur : ∀ a, y.isCurrent a = x.isCurrent a := by
    intro a
    simp only [System.isCurrent, hg]
  refine ⟨hord, ?_, ?_, ?_, ?_, ?_⟩
  · rw [ha, hg]
    exact h.generations
  · intro a hmem hcurrent
    rw [hcur] at hcurrent
    rw [ha] at hmem
    rw [hq]
    exact h.newest a hmem hcurrent
  · intro r hmem hok a hmem' heq hcurrent
    rw [hcur] at hcurrent
    rw [ha] at hmem'
    rw [hi]
    exact h.taken r (hresp hmem) hok a hmem' heq hcurrent
  · intro t s p hs hp hn
    rw [hi] at hp
    rw [hack] at hn
    exact h.signed t s p (hsig t s hs) hp hn
  · intro t s hs
    have hsettled := h.settled t s (hsig t s hs)
    unfold later untouched acknowledgedId at hsettled ⊢
    rw [ha, hr, hq, hi, hack]
    exact hsettled

theorem get?_erase_imp {d : Dict Owner S} {k : Owner} {s : S} (h : (d.erase k).get? t = some s) :
    t ≠ k ∧ d.get? t = some s := by
  rw [Dict.get?_erase] at h
  split at h
  · cases h
  · exact ⟨by assumption, h⟩

theorem Faithful.grabDevice (h : Faithful ser x) (hardwareId : String) (grabbed : Bool) :
    Faithful ser (x.grabDevice hardwareId grabbed) := by
  have hord : Ordered (x.grabDevice hardwareId grabbed) := by
    cases grabbed <;> exact h.ordered.of_eq rfl rfl rfl rfl rfl rfl rfl
  cases grabbed with
  | true =>
    exact h.forget hord rfl rfl rfl rfl (List.Subset.refl _) rfl rfl fun _ _ hs => hs
  | false =>
    exact h.forget hord rfl rfl rfl rfl (List.Subset.refl _) rfl rfl
      fun _ _ hs => (get?_erase_imp hs).2

theorem Faithful.invalidate (h : Faithful ser x) (target : Owner) :
    Faithful ser (x.invalidate target) :=
  h.forget (h.ordered.of_eq rfl rfl rfl rfl rfl rfl rfl) rfl rfl rfl rfl (List.Subset.refl _)
    rfl rfl fun _ _ hs => (get?_erase_imp hs).2

theorem Faithful.clear (h : Faithful ser x) (hardwareId : String) :
    Faithful ser (x.clearHardwareRuntimeState hardwareId) :=
  h.forget (h.ordered.of_eq rfl rfl rfl rfl rfl rfl rfl) rfl rfl rfl rfl (List.Subset.refl _)
    rfl rfl fun _ _ hs => (get?_erase_imp hs).2

theorem mayEnd_of_forgotten (h : x.lastSentSignatures.get? t = none) (requestId : ℕ) :
    mayEnd x requestId t = true := by
  unfold mayEnd
  rw [h]
  rfl

theorem Faithful.disconnect (h : Faithful ser x) : Faithful ser x.disconnect := by
  refine ⟨h.ordered.disconnect, ?_, ?_, ?_, ?_, ?_⟩
  · exact fun a ha => absurd ha List.not_mem_nil
  · exact fun a ha => absurd ha List.not_mem_nil
  · exact fun r hr => absurd hr List.not_mem_nil
  · exact fun t s p hs => absurd hs (by simp [System.disconnect])
  · exact fun t s hs => absurd hs (by simp [System.disconnect])

theorem Faithful.begin (h : Faithful ser x)
    (hguard : acknowledgedInOrder x .begin = true) : Faithful ser x.begin := by
  have hstale : ∀ a ∈ x.applies, x.begin.isCurrent a = true → False := by
    intro a ha hcurrent
    have hle := h.generations a ha
    have heq : a.generation = x.applyGeneration + 1 := of_decide_eq_true hcurrent
    omega
  refine ⟨h.ordered.of_eq rfl rfl rfl rfl rfl rfl rfl,
    fun a ha => Nat.le_succ_of_le (h.generations a ha),
    fun a ha hcurrent => (hstale a ha hcurrent).elim,
    fun r hr hok a ha heq hcurrent => (hstale a ha hcurrent).elim, h.signed, fun t s hs => ?_⟩
  have hs : x.lastSentSignatures.get? t = some s := hs
  cases hrelease : x.release with
  | none =>
    have hsettled := h.settled t s hs
    unfold later at hsettled ⊢
    rw [hrelease] at hsettled
    exact hsettled
  | some r =>
    by_cases ht : Owner.device r.hardwareId = t
    · have hmay : mayEnd x r.requestId t = true := by
        unfold acknowledgedInOrder abandons at hguard
        rw [hrelease] at hguard
        rw [← ht]
        exact hguard
      refine settled_of_mayEnd (y := x.begin) hs hmay (h.settled t s hs)
        (fun a ha _ => ha) (fun r' hr' hne => ?_) rfl fun hu => hu
      rw [hrelease] at hr'
      cases hr'
      exact absurd rfl hne
    · rcases h.settled t s hs with hlater | hstill
      · refine Or.inl (later_mono (y := x.begin) hlater (fun a ha _ _ => ha)
          fun r' hr' ht' _ => ?_)
        rw [hrelease] at hr'
        cases hr'
        exact absurd ht' ht
      · exact Or.inr hstill

/-! ## Commands that are sent -/

/-- While no command of the newest generation runs, a command may be sent. -/
theorem not_current_of_idle (hidle : x.idle = true) {a : PendingApply Content}
    (ha : a ∈ x.applies) : x.isCurrent a = false := by
  unfold System.idle at hidle
  rw [Bool.and_eq_true, List.all_eq_true] at hidle
  exact decide_eq_false (of_decide_eq_true (hidle.2 a ha))

theorem untouched_send {command : Command Content} (h : untouched x t = true)
    (hcommand : concerns t command = false) :
    untouched (x.send command) t = true := by
  rw [untouched_iff] at h ⊢
  refine ⟨h.1, fun q hq => ?_⟩
  rcases List.mem_append.mp hq with hq | hq
  · exact h.2 q hq
  · rw [List.mem_singleton.mp hq]
    exact hcommand

theorem Faithful.apply (h : Faithful ser x) (hidle : x.idle = true) (target : Owner)
    (content : Content) : Faithful ser (x.apply ser target content) := by
  have hord : Ordered (x.apply ser target content) := h.ordered.apply target content
  generalize hstage : x.execState.stage target (ser.commands content) = stage at hord
  obtain ⟨staged, refs, execState⟩ := stage
  simp only [System.apply, hstage] at hord ⊢
  refine ⟨hord, fun a ha => ?_, fun a ha hcurrent q hq t hconcerns => ?_,
    fun r hr hok a ha heq hcurrent => ?_, h.signed, fun t s hs => ?_⟩
  · rcases List.mem_cons.mp ha with rfl | ha
    · exact Nat.le_refl _
    · exact h.generations a ha
  · rcases List.mem_cons.mp ha with rfl | ha
    · exact hord.sent q hq
    · have hnot := not_current_of_idle hidle ha
      have hcurrent : x.isCurrent a = true := hcurrent
      rw [hnot] at hcurrent
      cases hcurrent
  · rcases List.mem_cons.mp ha with rfl | ha
    · have hle := (h.ordered.responses r hr).1
      have heq : x.requestCounter + 1 = r.requestId := heq
      omega
    · have hnot := not_current_of_idle hidle ha
      have hcurrent : x.isCurrent a = true := hcurrent
      rw [hnot] at hcurrent
      cases hcurrent
  · by_cases ht : target = t
    · left
      rw [later_iff]
      exact Or.inl ⟨_, List.mem_cons_self, ht, Nat.lt_succ_of_le (acknowledgedId_le h.ordered t)⟩
    · rcases h.settled t s hs with hlater | hstill
      · exact Or.inl (later_mono hlater (fun a ha _ _ => List.mem_cons_of_mem _ ha)
          fun r hr _ _ => hr)
      · exact Or.inr (untouched_send (x := { x with
          execState := execState.expose staged
          deviceRequestSequence := x.nextDeviceRequest target
          applies := _ :: x.applies }) hstill (decide_eq_false ht))

theorem Faithful.tryApply (h : Faithful ser x) (hidle : x.idle = true) (target : Owner)
    (content : Content) (sent : Bool) : Faithful ser (x.tryApply ser target content sent) := by
  cases sent with
  | true => exact h.apply hidle target content
  | false =>
    exact h.forget (h.ordered.of_eq rfl rfl rfl rfl rfl rfl rfl) rfl rfl rfl rfl
      (List.Subset.refl _) rfl rfl fun _ _ hs => hs

theorem Faithful.deactivateProfile (h : Faithful ser x) (hidle : x.idle = true)
    (hardwareId : String) : Faithful ser (x.deactivateProfile hardwareId) := by
  have hord := h.ordered.deactivateProfile hardwareId
  unfold System.deactivateProfile at hord ⊢
  split
  · exact h
  · rename_i hgrabbed
    rw [if_neg hgrabbed] at hord
    have hstale : ∀ a ∈ x.applies, x.isCurrent a = true → False := by
      intro a ha hcurrent
      rw [not_current_of_idle hidle ha] at hcurrent
      cases hcurrent
    refine ⟨hord, h.generations, fun a ha hcurrent => (hstale a ha hcurrent).elim,
      fun r hr hok a ha heq hcurrent => (hstale a ha hcurrent).elim, h.signed, fun t s hs => ?_⟩
    by_cases ht : Owner.device hardwareId = t
    · left
      rw [later_iff]
      exact Or.inr ⟨_, rfl, ht, Nat.lt_succ_of_le (acknowledgedId_le h.ordered t)⟩
    · rcases h.settled t s hs with hlater | hstill
      · refine Or.inl (later_mono hlater (fun a ha _ _ => ha) fun r hr _ _ => ?_)
        unfold System.idle at hidle
        rw [hr] at hidle
        cases hidle
      · exact Or.inr (untouched_send (x := { x with release := _ }) hstill
          (decide_eq_false ht))

theorem Faithful.collectRetired (h : Faithful ser x) : Faithful ser x.collectRetired := by
  have hord := h.ordered.collectRetired
  simp only [System.collectRetired] at hord ⊢
  split
  · exact h
  · rename_i hempty
    rw [if_neg hempty] at hord
    refine ⟨hord, h.generations, fun a ha hcurrent q hq t hconcerns => ?_, h.taken, h.signed,
      fun t s hs => ?_⟩
    · rcases List.mem_append.mp hq with hq | hq
      · exact h.newest a ha hcurrent q hq t hconcerns
      · rw [List.mem_singleton.mp hq] at hconcerns
        cases hconcerns
    · rcases h.settled t s hs with hlater | hstill
      · exact Or.inl hlater
      · exact Or.inr (untouched_send (x := { x with collection := _ }) hstill rfl)

/-! ## Answers -/

theorem mem_finish {a b : PendingApply Content} (hb : b ∈ x.applies)
    (hne : b.payload.requestId ≠ a.payload.requestId) : b ∈ (x.finish a).applies :=
  List.mem_filter.mpr ⟨hb, decide_eq_true hne⟩

/-- An apply that may end. -/
theorem Faithful.finish (h : Faithful ser x) {a : PendingApply Content} (ha : a ∈ x.applies)
    (hguard : mayEnd x a.payload.requestId a.payload.target = true) :
    Faithful ser (x.finish a) := by
  have hmem : ∀ b ∈ (x.finish a).applies, b ∈ x.applies :=
    fun b hb => (List.mem_filter.mp hb).1
  refine ⟨(sameChannel_finish x a).ordered h.ordered h.ordered.acknowledged,
    fun b hb => h.generations b (hmem b hb), fun b hb => h.newest b (hmem b hb),
    fun r hr hok b hb => h.taken r hr hok b (hmem b hb), h.signed, fun t s hs => ?_⟩
  have hs : x.lastSentSignatures.get? t = some s := hs
  by_cases ht : a.payload.target = t
  · rw [ht] at hguard
    exact settled_of_mayEnd (y := x.finish a) hs hguard (h.settled t s hs)
      (fun b hb hne => mem_finish hb hne) (fun r hr _ => hr) rfl fun hu => hu
  · rcases h.settled t s hs with hlater | hstill
    · refine Or.inl (later_mono (y := x.finish a) hlater (fun b hb htarget _ => ?_)
        fun r hr _ _ => hr)
      refine mem_finish hb fun heq => ht ?_
      rw [← h.ordered.unique hb ha heq]
      exact htarget
    · exact Or.inr hstill

theorem Faithful.dropRelease (h : Faithful ser x) {r : Release} (hr : x.release = some r)
    (hguard : mayEnd x r.requestId (.device r.hardwareId) = true) :
    Faithful ser { x with release := none } := by
  refine ⟨h.ordered.of_eq rfl rfl rfl rfl rfl rfl rfl, h.generations, h.newest, h.taken, h.signed,
    fun t s hs => ?_⟩
  by_cases ht : Owner.device r.hardwareId = t
  · rw [ht] at hguard
    refine settled_of_mayEnd (x := x) hs hguard (h.settled t s hs)
      (fun a ha _ => ha) (fun r' hr' hne => ?_) rfl fun hu => hu
    rw [hr] at hr'
    cases hr'
    exact absurd rfl hne
  · rcases h.settled t s hs with hlater | hstill
    · refine Or.inl (later_mono (y := { x with release := none }) hlater
        (fun a ha _ _ => ha) fun r' hr' ht' _ => ?_)
      rw [hr] at hr'
      cases hr'
      exact absurd ht' ht
    · exact Or.inr hstill

/-- Everything that could change the target is older than the acknowledged command. -/
theorem Faithful.storeSignature (h : Faithful ser x) {a : PendingApply Content}
    (hhandled : Handled x a.payload.requestId)
    (hinstalled : x.installed.get? a.payload.target = some a.payload)
    (hfree : ∀ q ∈ x.requests, ∀ t, concerns t q.command = false) :
    Faithful ser (x.storeSignature ser a) ∧
      acknowledgedId (x.storeSignature ser a) a.payload.target = a.payload.requestId := by
  have hack : ∀ t, (x.storeSignature ser a).acknowledged.get? t =
      if t = a.payload.target then some a.payload.requestId else x.acknowledged.get? t := by
    intro t
    rw [← Dict.get?_insert]
    unfold System.storeSignature
    cases a.payload.target <;> rfl
  have hsig : ∀ t, (x.storeSignature ser a).lastSentSignatures.get? t =
      if t = a.payload.target then some (ser.signature a.payload.content)
      else x.lastSentSignatures.get? t := by
    intro t
    rw [← Dict.get?_insert]
    unfold System.storeSignature
    cases a.payload.target <;> rfl
  have hframe : ∃ signatures acknowledged requests, x.storeSignature ser a = { x with
      lastSentSignatures := signatures
      acknowledged := acknowledged
      acknowledgedDeviceRequests := requests } := by
    unfold System.storeSignature
    cases a.payload.target <;> exact ⟨_, _, _, rfl⟩
  obtain ⟨signatures, acknowledged, deviceRequests, heq⟩ := hframe
  rw [heq] at hack hsig ⊢
  have hsame : SameChannel x { x with
      lastSentSignatures := signatures
      acknowledged := acknowledged
      acknowledgedDeviceRequests := deviceRequests } := .of_eq rfl rfl rfl rfl rfl rfl
  refine ⟨⟨hsame.ordered h.ordered fun t n hn => ?_, h.generations, h.newest, h.taken,
    fun t s p hs hp hn => ?_, fun t s hs => ?_⟩, ?_⟩
  · rw [hack] at hn
    split at hn
    · cases hn
      exact hhandled
    · exact h.ordered.acknowledged t n hn
  · rw [hsig] at hs
    rw [hack] at hn
    split at hs
    · rename_i ht
      cases hs
      rw [ht] at hp
      have hp : x.installed.get? a.payload.target = some p := hp
      rw [hinstalled] at hp
      cases hp
      rfl
    · rename_i ht
      rw [if_neg ht] at hn
      exact h.signed t s p hs hp hn
  · rw [hsig] at hs
    by_cases ht : t = a.payload.target
    · right
      rw [untouched_iff, ht]
      refine ⟨⟨a.payload, hinstalled, ?_⟩, fun q hq => hfree q hq _⟩
      rw [hack, if_pos rfl]
    · rw [if_neg ht] at hs
      have hsettled := h.settled t s hs
      unfold later untouched acknowledgedId Dict.getD at hsettled ⊢
      rw [hack, if_neg ht]
      exact hsettled
  · unfold acknowledgedId Dict.getD
    rw [hack, if_pos rfl]
    rfl

theorem Faithful.settle (h : Faithful ser x) {a : PendingApply Content} {verdict : Verdict}
    (ha : a ∈ x.applies) (hhandled : Handled x a.payload.requestId)
    (htaken : verdict = .ok → x.isCurrent a = true →
      x.installed.get? a.payload.target = some a.payload)
    (hverdict : Truthful x a.payload verdict)
    (hguard : (settleAbandons x a verdict).all (fun e => mayEnd x e.1 e.2) = true) :
    Faithful ser (x.settle ser a verdict) := by
  have hdiscard : ∀ {x : System Content S}, Faithful ser x →
      Faithful ser (x.discardStaged a) := by
    intro x h
    exact h.forget (h.ordered.of_eq rfl rfl rfl rfl rfl rfl rfl) rfl rfl rfl rfl
      (List.Subset.refl _) rfl rfl fun _ _ hs => hs
  have hcommit : Faithful ser (x.commitReferences a) :=
    h.forget (h.ordered.of_eq rfl rfl rfl rfl rfl rfl rfl) rfl rfl rfl rfl
      (List.Subset.refl _) rfl rfl fun _ _ hs => hs
  cases verdict with
  | error => exact (hdiscard h).finish (x := x.discardStaged a) ha hguard
  | waiting =>
    cases htarget : a.payload.target with
    | combos => exact absurd htarget hverdict.1
    | device hardwareId =>
      simp only [settleAbandons, htarget] at hguard
      simp only [System.settle, htarget, System.deferMappingUntilRegrab]
      split
      · rename_i hovertaken
        rw [if_pos hovertaken, ← htarget] at hguard
        exact (hdiscard h).finish (x := x.discardStaged a) ha hguard
      · refine (hdiscard (h.clear hardwareId)).finish ha (mayEnd_of_forgotten ?_ _)
        rw [htarget]
        exact Dict.get?_erase_self _ _
  | ok =>
    show Faithful ser ((x.commit ser a).finish a)
    unfold System.commit
    cases hcurrent : x.isCurrent a with
    | true =>
      have hfree : ∀ q ∈ x.requests, ∀ t, concerns t q.command = false := by
        intro q hq t
        by_contra hnot
        rw [Bool.not_eq_false] at hnot
        have hle := h.newest a ha hcurrent q hq t hnot
        have hlt := hhandled.2 q hq
        omega
      obtain ⟨hstored, hid⟩ := hcommit.storeSignature (a := a) hhandled (htaken rfl hcurrent) hfree
      rw [if_pos rfl]
      refine hstored.finish ?_ ?_
      · unfold System.storeSignature
        cases a.payload.target <;> exact ha
      · unfold mayEnd
        rw [hid, decide_eq_true (Nat.le_refl _), Bool.or_true, Bool.true_or, Bool.true_or]
    | false =>
      simp only [settleAbandons, hcurrent, Bool.false_eq_true, if_false] at hguard
      rw [if_neg Bool.false_ne_true]
      exact hcommit.finish (x := x.commitReferences a) ha hguard
  | unused refs => exact hverdict.elim

theorem Faithful.answered (h : Faithful ser x) {response : Response}
    (hguard : acknowledgedInOrder x (.answered response) = true)
    (hstep : x.answered ser response = some y) : Faithful ser y := by
  unfold System.answered at hstep
  split at hstep
  · rename_i hr
    have herase : x.responses.erase response ⊆ x.responses :=
      fun r hr => List.mem_of_mem_erase hr
    have htaken : Faithful ser { x with responses := x.responses.erase response } :=
      h.forget (SameChannel.ordered (x := x) ⟨rfl, rfl, herase, rfl, rfl, List.Sublist.refl _⟩
        h.ordered h.ordered.acknowledged) rfl rfl rfl rfl herase rfl rfl fun _ _ hs => hs
    simp only [Option.some.injEq] at hstep
    rw [← hstep]
    unfold acknowledgedInOrder abandons at hguard
    split
    · rename_i a ha
      have ha : x.applyOf response.requestId = some a := ha
      simp only [ha] at hguard
      obtain ⟨hmem, hid⟩ := applyOf_eq_some ha
      refine htaken.settle hmem ?_ (fun hok hcurrent => ?_) ?_ hguard
      · rw [hid]
        exact h.ordered.responses response hr
      · exact h.taken response hr hok a hmem hid hcurrent
      · exact h.ordered.verdict response hr a hmem hid
    · rename_i ha
      have ha : x.applyOf response.requestId = none := ha
      simp only [ha] at hguard
      split
      · rename_i r hrelease
        have hrelease : x.releaseOf response.requestId = some r := hrelease
        simp only [hrelease] at hguard
        have hpending : x.release = some r := (Option.filter_eq_some_iff.mp hrelease).1
        simp only [System.settleRelease]
        by_cases herror : response.verdict = .error
        · rw [if_pos herror] at hguard ⊢
          exact htaken.dropRelease hpending hguard
        · rw [if_neg herror]
          exact (htaken.clear r.hardwareId).dropRelease hpending
            (mayEnd_of_forgotten (Dict.get?_erase_self _ _) _)
      · split
        · rename_i collection _
          cases response.verdict <;>
            exact htaken.forget (htaken.ordered.of_eq rfl rfl rfl rfl rfl rfl rfl) rfl rfl rfl rfl
              (List.Subset.refl _) rfl rfl fun _ _ hs => hs
        · exact htaken
  · cases hstep

theorem Faithful.timedOut (h : Faithful ser x) {requestId : ℕ}
    (hguard : acknowledgedInOrder x (.timedOut requestId) = true)
    (hstep : x.timedOut requestId = some y) : Faithful ser y := by
  unfold System.timedOut at hstep
  unfold acknowledgedInOrder abandons at hguard
  split at hstep
  · rename_i a ha
    cases hstep
    simp only [ha] at hguard
    unfold System.applyTimeout
    split
    · exact h.disconnect
    · rename_i hkeep
      rw [if_neg hkeep] at hguard
      refine Faithful.finish (h.forget (y := x.discardStaged a)
        (h.ordered.of_eq rfl rfl rfl rfl rfl rfl rfl) rfl rfl rfl rfl (List.Subset.refl _)
        rfl rfl fun _ _ hs => hs) (applyOf_eq_some ha).1 hguard
  · rename_i ha
    simp only [ha] at hguard
    split at hstep
    · rename_i r hr
      cases hstep
      rw [hr] at hguard
      exact h.dropRelease (Option.filter_eq_some_iff.mp hr).1 hguard
    · obtain ⟨collection, -, heq⟩ := Option.map_eq_some_iff.mp hstep
      rw [← heq]
      exact h.forget (h.ordered.of_eq rfl rfl rfl rfl rfl rfl rfl) rfl rfl rfl rfl
        (List.Subset.refl _) rfl rfl fun _ _ hs => hs

/-! ## The daemon -/

/-- What the daemon does with the first command does not reach a target nothing is under way
for. -/
theorem Faithful.taken_over (h : Faithful ser x) {rest : List (Request Content)}
    (hq : x.requests = q :: rest) (hord : Ordered y) (hg : y.applyGeneration = x.applyGeneration)
    (ha : y.applies = x.applies) (hrel : y.release = x.release) (hreq : y.requests = rest)
    (hsig : y.lastSentSignatures = x.lastSentSignatures) (hack : y.acknowledged = x.acknowledged)
    (hother : ∀ t, concerns t q.command = false → y.installed.get? t = x.installed.get? t)
    (hown : ∀ t p, concerns t q.command = true → y.installed.get? t = some p →
      x.installed.get? t = some p ∨ p.requestId = q.requestId)
    (hresp : ∀ r ∈ y.responses, r.verdict = .ok → r ∈ x.responses ∨
      (r.requestId = q.requestId ∧ ∀ p, q.command = .set p →
        y.installed.get? p.target = some p)) : Faithful ser y := by
  have hmem : q ∈ x.requests := hq ▸ List.mem_cons_self
  have hsub : ∀ q' ∈ rest, q' ∈ x.requests := fun q' hq' => hq ▸ List.mem_cons_of_mem q hq'
  have hcur : ∀ a, y.isCurrent a = x.isCurrent a := by
    intro a
    simp only [System.isCurrent, hg]
  refine ⟨hord, ?_, ?_, ?_, ?_, ?_⟩
  · rw [ha, hg]
    exact h.generations
  · intro a hmem' hcurrent q' hq' t hconcerns
    rw [hcur] at hcurrent
    rw [ha] at hmem'
    rw [hreq] at hq'
    exact h.newest a hmem' hcurrent q' (hsub q' hq') t hconcerns
  · intro r hr hok a hmem' heq hcurrent
    rw [hcur] at hcurrent
    rw [ha] at hmem'
    rcases hresp r hr hok with hr | ⟨hid, hset⟩
    · have hold := h.taken r hr hok a hmem' heq hcurrent
      cases hconcerns : concerns a.payload.target q.command with
      | false => rw [hother _ hconcerns, hold]
      | true =>
        have hle := h.newest a hmem' hcurrent q hmem _ hconcerns
        have hlt := (h.ordered.responses r hr).2 q hmem
        omega
    · exact hset a.payload (h.ordered.matching q hmem a hmem' (heq.trans hid))
  · intro t s p hs hp hn
    rw [hsig] at hs
    rw [hack] at hn
    cases hconcerns : concerns t q.command with
    | false =>
      rw [hother t hconcerns] at hp
      exact h.signed t s p hs hp hn
    | true =>
      rcases hown t p hconcerns hp with hp | hid
      · exact h.signed t s p hs hp hn
      · have hlt := (h.ordered.acknowledged t _ hn).2 q hmem
        omega
  · intro t s hs
    rw [hsig] at hs
    rcases h.settled t s hs with hlater | hstill
    · left
      unfold later acknowledgedId at hlater ⊢
      rw [ha, hrel, hack]
      exact hlater
    · right
      rw [untouched_iff] at hstill ⊢
      rw [hother t (hstill.2 q hmem), hreq, hack]
      exact ⟨hstill.1, fun q' hq' => hstill.2 q' (hsub q' hq')⟩

theorem install_get? (payload : Payload Content) (t : Owner) :
    (x.install payload).installed.get? t =
      if t = payload.target then some payload else x.installed.get? t :=
  Dict.get?_insert _ _ _ _

theorem uninstall_get? (hardwareId : String) (t : Owner) :
    (x.uninstall hardwareId).installed.get? t =
      if t = .device hardwareId then none else x.installed.get? t :=
  Dict.get?_erase _ _ _

/- What a command installs, and what it leaves alone. -/
theorem install_changes {payload : Payload Content} (hcommand : q.command = .set payload)
    (hid : payload.requestId = q.requestId) :
    (∀ t, concerns t q.command = false →
      (x.install payload).installed.get? t = x.installed.get? t) ∧
    ∀ t p, concerns t q.command = true → (x.install payload).installed.get? t = some p →
      x.installed.get? t = some p ∨ p.requestId = q.requestId := by
  constructor
  · intro t hnot
    rw [hcommand] at hnot
    rw [install_get?, if_neg fun heq => of_decide_eq_false hnot heq.symm]
  · intro t p _ hp
    rw [install_get?] at hp
    split at hp
    · cases hp
      exact Or.inr hid
    · exact Or.inl hp

theorem uninstall_changes {hardwareId : String} (hcommand : q.command = .releaseDevice hardwareId) :
    (∀ t, concerns t q.command = false →
      (x.uninstall hardwareId).installed.get? t = x.installed.get? t) ∧
    ∀ t p, concerns t q.command = true → (x.uninstall hardwareId).installed.get? t = some p →
      x.installed.get? t = some p ∨ p.requestId = q.requestId := by
  constructor
  · intro t hnot
    rw [hcommand] at hnot
    rw [uninstall_get?, if_neg fun heq => of_decide_eq_false hnot heq.symm]
  · intro t p _ hp
    rw [uninstall_get?] at hp
    split at hp
    · cases hp
    · exact Or.inl hp

theorem Faithful.perform (h : Faithful ser x) {outcome : Outcome} {answers : Bool}
    (hstep : x.handleCommand outcome answers = some y) : Faithful ser y := by
  have hord := h.ordered.perform hstep
  unfold System.handleCommand at hstep
  split at hstep
  · cases hstep
  · rename_i q rest hq
    have hmem : q ∈ x.requests := hq ▸ List.mem_cons_self
    have hnotOk : ∀ {r : Response} {verdict : Verdict}, r ∈ x.responses ∨
        r = ⟨q.requestId, verdict⟩ → r.verdict = .ok → verdict ≠ .ok → r ∈ x.responses := by
      rintro r verdict (hr | rfl) hok hne
      · exact hr
      · exact absurd hok hne
    unfold System.perform at hstep
    split at hstep
    · rename_i payload hcommand
      cases hstep
      obtain ⟨hother, hown⟩ := install_changes (x := x) hcommand
        (h.ordered.payload q hmem payload hcommand)
      refine h.taken_over hq hord rfl rfl rfl rfl rfl rfl hother hown fun r hr hok => ?_
      rcases mem_answer hr with hr | rfl
      · exact Or.inl hr
      · refine Or.inr ⟨rfl, fun p hp => ?_⟩
        rw [hcommand] at hp
        cases hp
        exact Dict.get?_insert_self _ _ _
    · split at hstep
      · cases hstep
      · cases hstep
        refine h.taken_over hq hord rfl rfl rfl rfl rfl rfl (fun t _ => rfl)
          (fun t p _ hp => Or.inl hp) fun r hr hok => Or.inl ?_
        exact hnotOk (mem_answer hr) hok Verdict.noConfusion
    · rename_i payload done hcommand
      cases hstep
      obtain ⟨hother, hown⟩ := install_changes (x := x) hcommand
        (h.ordered.payload q hmem payload hcommand)
      cases done with
      | false =>
        refine h.taken_over hq hord rfl rfl rfl rfl rfl rfl (fun t _ => rfl)
          (fun t p _ hp => Or.inl hp) fun r hr hok => Or.inl ?_
        exact hnotOk (mem_answer hr) hok Verdict.noConfusion
      | true =>
        refine h.taken_over hq hord rfl rfl rfl rfl rfl rfl hother hown
          fun r hr hok => Or.inl ?_
        exact hnotOk (mem_answer hr) hok Verdict.noConfusion
    · rename_i hardwareId hcommand
      cases hstep
      obtain ⟨hother, hown⟩ := uninstall_changes (x := x) hcommand
      refine h.taken_over hq hord rfl rfl rfl rfl rfl rfl hother hown fun r hr hok => ?_
      rcases mem_answer hr with hr | rfl
      · exact Or.inl hr
      · refine Or.inr ⟨rfl, fun p hp => ?_⟩
        rw [hcommand] at hp
        cases hp
    · rename_i hardwareId done hcommand
      cases hstep
      obtain ⟨hother, hown⟩ := uninstall_changes (x := x) hcommand
      cases done with
      | false =>
        refine h.taken_over hq hord rfl rfl rfl rfl rfl rfl (fun t _ => rfl)
          (fun t p _ hp => Or.inl hp) fun r hr hok => Or.inl ?_
        exact hnotOk (mem_answer hr) hok Verdict.noConfusion
      | true =>
        refine h.taken_over hq hord rfl rfl rfl rfl rfl rfl hother hown
          fun r hr hok => Or.inl ?_
        exact hnotOk (mem_answer hr) hok Verdict.noConfusion
    · cases hstep
      refine h.taken_over hq hord rfl rfl rfl rfl rfl rfl (fun t _ => rfl)
        (fun t p _ hp => Or.inl hp) fun r hr hok => Or.inl ?_
      exact hnotOk (mem_answer hr) hok Verdict.noConfusion
    · cases hstep
      refine h.taken_over hq hord rfl rfl rfl rfl rfl rfl (fun t _ => rfl)
        (fun t p _ hp => Or.inl hp) fun r hr hok => Or.inl ?_
      exact hnotOk (mem_answer hr) hok Verdict.noConfusion
    · cases hstep

theorem Faithful.step [DecidableEq S] {op : Op Content} (h : Faithful ser x)
    (hguard : acknowledgedInOrder x op = true) (hstep : Apply.step ser x op = some y) :
    Faithful ser y := by
  cases op with
  | begin =>
    cases hstep
    exact h.begin hguard
  | updateCombos content sent
  | updateMapping hardwareId content sent
  | setMapping hardwareId content sent =>
    obtain rfl | ⟨hidle, target, rfl⟩ := step_update (by constructor) hstep
    · exact h
    · exact h.tryApply hidle target content sent
  | grabDevice hardwareId grabbed =>
    obtain ⟨-, rfl⟩ := enabled_eq_some.mp hstep
    exact h.grabDevice hardwareId grabbed
  | deactivateProfile hardwareId =>
    obtain ⟨hidle, rfl⟩ := enabled_eq_some.mp hstep
    exact h.deactivateProfile hidle hardwareId
  | answered response => exact h.answered hguard hstep
  | timedOut requestId => exact h.timedOut hguard hstep
  | disconnected =>
    cases hstep
    exact h.disconnect
  | collectRetired =>
    obtain ⟨-, rfl⟩ := enabled_eq_some.mp hstep
    exact h.collectRetired
  | invalidate target =>
    cases hstep
    exact h.invalidate target
  | command outcome answers => exact h.perform hstep

/-- Once nothing runs and nothing is in flight, the stored signature is that of the payload the
daemon has installed. -/
theorem stored_signature_installed [DecidableEq S] {ops : List (Op Content)}
    (hguard : Guarded (Apply.step ser) (fun x op => acknowledgedInOrder x op = true) {} ops)
    (hrun : run (Apply.step ser) {} ops = some x) (hquiet : quiet x = true)
    {t : Owner} {content : Content}
    (hstored : x.lastSentSignatures.get? t = some (ser.signature content)) :
    ∃ p, x.installed.get? t = some p ∧ ser.signature p.content = ser.signature content ∧
      (Function.Injective ser.signature → p.content = content) := by
  have h : Faithful ser x :=
    guarded_run_invariant (I := Faithful ser) (fun _ _ _ h hg hs => h.step hg hs)
      faithful_start hguard hrun
  unfold quiet at hquiet
  simp only [Bool.and_eq_true, List.isEmpty_iff, Option.isNone_iff_eq_none] at hquiet
  obtain ⟨⟨⟨happlies, hrelease⟩, -⟩, -⟩ := hquiet
  rcases h.settled t _ hstored with hlater | hstill
  · rw [later_iff, happlies, hrelease] at hlater
    rcases hlater with ⟨a, ha, -⟩ | ⟨r, hr, -⟩
    · cases ha
    · cases hr
  · obtain ⟨⟨p, hp, hack⟩, -⟩ := untouched_iff.mp hstill
    have hsignature := h.signed t _ p hstored hp hack
    exact ⟨p, hp, hsignature, fun hinj => hinj hsignature⟩

/- Combos given by the commands they execute, which are also their signature. -/
def commandLists : Serializer (List String) (List String) := ⟨id, id⟩

/- The answer to the second update comes when the third generation has sent its own. -/
def overlapping : List (Op (List String)) :=
  [.updateCombos ["a"] true, .command .ok true, .answered ⟨1, .ok⟩, .begin,
    .updateCombos ["b"] true, .command .ok true, .begin, .updateCombos ["c"] true,
    .answered ⟨2, .ok⟩, .command .ok true, .answered ⟨3, .ok⟩]

theorem stored_signature_installed_overlapping :
    (∃ x, run (step commandLists) {} overlapping = some x ∧ quiet x = true ∧
      x.lastSentSignatures.get? .combos = some ["c"]) ∧
    ∀ x, run (step commandLists) {} overlapping = some x → quiet x = true →
      x.lastSentSignatures.get? .combos = some (commandLists.signature ["c"]) →
      ∃ p, x.installed.get? .combos = some p ∧
        commandLists.signature p.content = commandLists.signature ["c"] ∧
        (Function.Injective commandLists.signature → p.content = ["c"]) := by
  have hguard : Guarded (step commandLists) (fun x op => acknowledgedInOrder x op = true)
      {} overlapping := by decide
  have hsome : (run (step commandLists) {} overlapping).any (fun x => quiet x &&
      decide (x.lastSentSignatures.get? .combos = some ["c"])) = true := by decide
  rw [Option.any_eq_true] at hsome
  obtain ⟨x, hrun, hsys⟩ := hsome
  rw [Bool.and_eq_true, decide_eq_true_eq] at hsys
  exact ⟨⟨x, hrun, hsys⟩, fun x hrun hquiet hstored =>
    stored_signature_installed hguard hrun hquiet hstored⟩

/- The second update is superseded after the daemon has taken it; the third generation finds
the combos of the first one resolved again and skips them. -/
def superseded : List (Op (List String)) :=
  [.updateCombos ["a"] true, .command .ok true, .answered ⟨1, .ok⟩, .begin,
    .updateCombos ["b"] true, .begin, .command .ok true, .answered ⟨2, .ok⟩,
    .updateCombos ["a"] true]

/-- The daemon is left with the payload of a superseded generation. -/
theorem skipped_update_stale :
    ¬∀ (ops : List (Op (List String))) (x : System (List String) (List String)),
      run (step commandLists) {} ops = some x → quiet x = true →
      ∀ t content, x.lastSentSignatures.get? t = some (commandLists.signature content) →
        ∃ p, x.installed.get? t = some p ∧
          commandLists.signature p.content = commandLists.signature content := by
  intro h
  have hstale : (run (step commandLists) {} superseded).any (fun x => quiet x &&
      decide (x.lastSentSignatures.get? .combos = some ["a"]) &&
      (x.installed.get? .combos).any fun p => p.content = ["b"]) = true := by decide
  rw [Option.any_eq_true] at hstale
  obtain ⟨x, hrun, hsys⟩ := hstale
  rw [Bool.and_eq_true, Bool.and_eq_true, decide_eq_true_eq, Option.any_eq_true] at hsys
  obtain ⟨⟨hquiet, hstored⟩, p, hp, hcontent⟩ := hsys
  obtain ⟨q, hq, hsame⟩ := h superseded x hrun hquiet .combos ["a"] hstored
  rw [hp] at hq
  cases hq
  rw [of_decide_eq_true hcontent] at hsame
  exact absurd hsame (by decide)

end Keymasq.Session.Skipping
