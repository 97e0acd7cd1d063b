import Keymasq.Feedback.Sequence

/-!
# The map of effects

No two virtual effects have the same physical one, and what is mapped lives on the
device. What the current operation knows of its effect is still so.
-/

namespace Keymasq.Feedback.Effects
open Foundation Transition Proxy Sequence


variable {V P : Type} [DecidableEq V]

/-- Plays of the effect are parked. -/
def Parks : Phase V P → Prop
  | .begun _ => True
  | .published _ _ => True
  | .acknowledged _ => True
  | _ => False

/-- What an operation knows of the map. -/
def Fits (s : State V P) (op : Operation V P) : Prop :=
  match op.phase, op.kind with
  | .waiting, _ => True
  | .done _, _ => True
  | .begun previous, .upload effect =>
    previous = s.effects.get? effect ∧ effect ∈ s.pendingUploads
  | .published previous physical, .upload effect =>
    s.effects.get? effect = some physical ∧ effect ∈ s.pendingUploads ∧
      ∀ p, previous = some p → p = physical
  | .acknowledged physical, .upload effect =>
    s.effects.get? effect = some physical ∧ effect ∈ s.pendingUploads
  | .flushing physical plays, .upload effect =>
    s.effects.get? effect = some physical ∧ ∀ play ∈ plays, play.effect = effect
  | .erasing physical, .erase effect =>
    s.effects.get? effect = none ∧ physical ∈ s.live ∧ ∀ v, s.effects.get? v ≠ some physical
  | .writing physical, .play play => s.effects.get? play.effect = some physical
  | _, _ => False

structure Mapped (s : State V P) : Prop where
  injective : ∀ v v' p, s.effects.get? v = some p → s.effects.get? v' = some p → v = v'
  live : ∀ v p, s.effects.get? v = some p → p ∈ s.live
  fits : ∀ id op, s.operations.get? id = some op → Fits s op
  pending : ∀ v ∈ s.pendingUploads,
    ∃ id op, s.operations.get? id = some op ∧ op.kind = .upload v ∧ Parks op.phase
  parked : ∀ v, ∀ play ∈ s.queuedUploadPlays.getD v [], v ∈ s.pendingUploads ∧ play.effect = v

section Advance

variable {s t : State V P} {id : Nat} {op : Operation V P}

theorem fits_idle (hidle : op.phase = .waiting ∨ op.isDone = true) : Fits s op := by
  unfold Fits
  obtain hphase | hdone := hidle
  · rw [hphase]
    trivial
  · unfold Operation.isDone at hdone
    cases hphase : op.phase with
    | done ok => trivial
    | _ =>
      rw [hphase] at hdone
      cases hdone

omit [DecidableEq V] in
theorem parks_active (hparks : Parks op.phase) : op.phase ≠ .waiting ∧ op.isDone = false := by
  unfold Operation.isDone
  cases hphase : op.phase with
  | waiting
  | done ok =>
    rw [hphase] at hparks
    exact hparks.elim
  | _ => exact ⟨by simp, rfl⟩

/-- Only the current operation parks plays. -/
theorem pending_current (hm : Mapped s) (h : Current s id op) {v : V}
    (hv : v ∈ s.pendingUploads) : op.kind = .upload v ∧ Parks op.phase := by
  obtain ⟨j, g, hg, hkind, hparks⟩ := hm.pending v hv
  obtain ⟨hwaiting, hdone⟩ := parks_active hparks
  by_cases hj : j = id
  · rw [hj, h.get] at hg
    cases hg
    exact ⟨hkind, hparks⟩
  · obtain hidle | hidle := h.others hj hg
    · exact absurd hidle hwaiting
    · rw [hdone] at hidle
      cases hidle

theorem not_pending (hm : Mapped s) (h : Current s id op) (hparks : ¬ Parks op.phase) (v : V) :
    v ∉ s.pendingUploads := fun hv => hparks (pending_current hm h hv).2

/-- The current operation goes on; the others know nothing. -/
theorem mapped_phase (h : Current s id op) {phase : Phase V P}
    (hops : ∀ j, t.operations.get? j =
      if j = id then some { op with phase := phase } else s.operations.get? j)
    (hinjective : ∀ v v' p, t.effects.get? v = some p → t.effects.get? v' = some p → v = v')
    (hlive : ∀ v p, t.effects.get? v = some p → p ∈ t.live)
    (hfits : Fits t { op with phase := phase })
    (hpending : ∀ v ∈ t.pendingUploads, op.kind = .upload v ∧ Parks phase)
    (hparked : ∀ v, ∀ play ∈ t.queuedUploadPlays.getD v [],
      v ∈ t.pendingUploads ∧ play.effect = v) : Mapped t := by
  refine ⟨hinjective, hlive, fun j g hg => ?_, fun v hv => ?_, hparked⟩
  · rw [hops] at hg
    split at hg
    · cases hg
      exact hfits
    · next hj => exact fits_idle (h.others hj hg)
  · obtain ⟨hkind, hparks⟩ := hpending v hv
    exact ⟨id, { op with phase := phase }, by rw [hops, if_pos rfl], hkind, hparks⟩

/-- An operation goes on that parks nothing, before and after. -/
theorem mapped_quiet (hm : Mapped s) (h : Current s id op) (hparks : ¬ Parks op.phase)
    {phase : Phase V P}
    (hops : ∀ j, t.operations.get? j =
      if j = id then some { op with phase := phase } else s.operations.get? j)
    (hinjective : ∀ v v' p, t.effects.get? v = some p → t.effects.get? v' = some p → v = v')
    (hlive : ∀ v p, t.effects.get? v = some p → p ∈ t.live)
    (hfits : Fits t { op with phase := phase })
    (hpending : t.pendingUploads = s.pendingUploads)
    (hqueued : t.queuedUploadPlays = s.queuedUploadPlays) : Mapped t := by
  refine mapped_phase h hops hinjective hlive hfits (fun v hv => ?_) fun v play hplay => ?_
  · rw [hpending] at hv
    exact absurd hv (not_pending hm h hparks v)
  · rw [hqueued] at hplay
    rw [hpending]
    exact hm.parked v play hplay

/-- Effects that an upload stops to park for. -/
theorem parked_discard (hm : Mapped s) (h : Current s id op) {effect : V}
    (hkind : op.kind = .upload effect) (v : V) :
    v ∉ (s.pendingUploads.erase effect) ∧ (s.queuedUploadPlays.erase effect).getD v [] = [] := by
  have hnone : v ∉ s.pendingUploads.erase effect := by
    intro hv
    obtain ⟨hne, hv⟩ := Finset.mem_erase.mp hv
    have hkind' := (pending_current hm h hv).1
    rw [hkind] at hkind'
    cases hkind'
    exact hne rfl
  refine ⟨hnone, ?_⟩
  rw [List.eq_nil_iff_forall_not_mem]
  intro play hplay
  unfold Dict.getD at hplay
  by_cases hv : v = effect
  · rw [hv, Dict.get?_erase_self] at hplay
    cases hplay
  · rw [Dict.get?_erase_of_ne _ hv] at hplay
    exact hnone (Finset.mem_erase.mpr ⟨hv, (hm.parked v play hplay).1⟩)

end Advance

section Moves

variable {s t : State V P}

/-- What a schedule leaves as it is. -/
theorem mapped_schedule (hs : Serial s) (hm : Mapped s) (kind : Kind V)
    (hops : t.operations = s.operations.insert s.nextOperation
      { kind := kind, previous := s.operationTail })
    (heffects : t.effects = s.effects) (hlive : t.live = s.live)
    (hpending : t.pendingUploads = s.pendingUploads)
    (hqueued : t.queuedUploadPlays = s.queuedUploadPlays) : Mapped t := by
  have hfits {g : Operation V P} (hg : Fits s g) : Fits t g := by
    unfold Fits at hg ⊢
    rwa [heffects, hlive, hpending]
  refine ⟨?_, ?_, fun j g hg => ?_, fun v hv => ?_, ?_⟩
  · rw [heffects]
    exact hm.injective
  · rw [heffects, hlive]
    exact hm.live
  · rw [hops, Dict.get?_insert] at hg
    split at hg
    · cases hg
      exact fits_idle (.inl rfl)
    · exact hfits (hm.fits j g hg)
  · rw [hpending] at hv
    obtain ⟨j, g, hg, hrest⟩ := hm.pending v hv
    have hlt := hs.domain j g hg
    exact ⟨j, g, by rw [hops, Dict.get?_insert_of_ne _ _ (by omega), hg], hrest⟩
  · rw [hqueued, hpending]
    exact hm.parked

theorem mapped_same (hm : Mapped s) (hops : t.operations = s.operations)
    (heffects : t.effects = s.effects) (hlive : t.live = s.live)
    (hpending : t.pendingUploads = s.pendingUploads)
    (hparked : ∀ v, ∀ play ∈ t.queuedUploadPlays.getD v [],
      v ∈ s.pendingUploads ∧ play.effect = v) : Mapped t := by
  refine ⟨?_, ?_, fun j g hg => ?_, ?_, ?_⟩
  · rw [heffects]
    exact hm.injective
  · rw [heffects, hlive]
    exact hm.live
  · rw [hops] at hg
    have hfits := hm.fits j g hg
    unfold Fits at hfits ⊢
    rwa [heffects, hlive, hpending]
  · rw [hpending, hops]
    exact hm.pending
  · rw [hpending]
    exact hparked

theorem mapped_playEvent (hs : Serial s) (hm : Mapped s) (effect : V) (value : Int) :
    Mapped (playEvent s effect value) := by
  unfold playEvent
  simp only
  split
  · next hpending =>
    refine mapped_same hm rfl rfl rfl rfl fun v play hplay => ?_
    simp only [Dict.getD, Dict.get?_insert] at hplay
    split at hplay
    · next heq =>
      rw [heq]
      obtain hold | hnew := List.mem_append.mp hplay
      · exact hm.parked effect play hold
      · rw [List.mem_singleton] at hnew
        rw [hnew]
        exact ⟨hpending, rfl⟩
    · exact hm.parked v play hplay
  · split
    · exact mapped_same hm rfl rfl rfl rfl hm.parked
    · exact mapped_schedule hs hm _ rfl rfl rfl rfl rfl

variable [DecidableEq P]

theorem mapped_move (hs : Serial s) (hm : Mapped s) (hmove : Move s t) : Mapped t := by
  cases hmove with
  | requested kind hrequest => exact mapped_schedule hs hm kind rfl rfl rfl rfl rfl
  | arrived effect value => exact mapped_playEvent hs hm effect value
  | scheduled => exact mapped_schedule hs hm .other rfl rfl rfl rfl rfl
  | rejected id op h hphase hrequest
  | unmapped id op play h hphase hkind hmapped
  | passed id op h hphase hkind
  | uploaded id op effect physical h hphase hkind
  | played id op play physical h hphase hkind =>
    exact mapped_quiet hm h (by simp [hphase, Parks]) (get?_setPhase s id op _) hm.injective
      hm.live (fits_idle (.inr rfl)) rfl rfl
  | begun id op effect h hphase hkind =>
    have hnone := not_pending hm h (by simp [hphase, Parks])
    refine mapped_phase h (get?_setPhase s id op _) hm.injective hm.live ?_ (fun v hv => ?_)
      fun v play hplay => ?_
    · unfold Fits
      rw [hkind]
      exact ⟨rfl, Finset.mem_insert_self _ _⟩
    · obtain rfl | hv := Finset.mem_insert.mp hv
      · exact ⟨hkind, trivial⟩
      · exact absurd hv (hnone v)
    · exact absurd (hm.parked v play hplay).1 (hnone v)
  | taken id op effect physical h hphase hkind hmapped =>
    refine mapped_quiet hm h (by simp [hphase, Parks]) (get?_setPhase s id op _)
      (fun v v' p hv hv' => ?_) (fun v p hv => ?_) ?_ rfl rfl
    · simp only [Dict.get?_erase] at hv hv'
      split at hv
      · cases hv
      · split at hv'
        · cases hv'
        · exact hm.injective v v' p hv hv'
    · simp only [Dict.get?_erase] at hv
      split at hv
      · cases hv
      · exact hm.live v p hv
    · unfold Fits
      rw [hkind]
      refine ⟨Dict.get?_erase_self _ _, hm.live effect physical hmapped, fun v hv => ?_⟩
      simp only [Dict.get?_erase] at hv
      split at hv
      · cases hv
      · next hne => exact hne (hm.injective v effect physical hv hmapped)
  | lookedUp id op play physical h hphase hkind hmapped =>
    refine mapped_quiet hm h (by simp [hphase, Parks]) (get?_setPhase s id op _) hm.injective
      hm.live ?_ rfl rfl
    unfold Fits
    rw [hkind]
    exact hmapped
  | failed id op effect previous h hphase hkind =>
    have hgone := parked_discard hm h hkind
    refine mapped_phase h (get?_setPhase s id op _) hm.injective hm.live (fits_idle (.inr rfl))
      (fun v hv => absurd hv (hgone v).1) fun v play hplay => ?_
    change play ∈ (s.queuedUploadPlays.erase effect).getD v [] at hplay
    rw [(hgone v).2] at hplay
    cases hplay
  | published id op effect previous physical h hphase hkind hreturns =>
    have hfits := hm.fits id op h.get
    unfold Fits at hfits
    rw [hphase, hkind] at hfits
    obtain ⟨hprevious, hpending⟩ := hfits
    have hother (v : V) (hv : s.effects.get? v = some physical) : v = effect := by
      unfold uploadReturns at hreturns
      cases hp : previous with
      | none =>
        rw [hp, Option.elim_none, decide_eq_true_eq] at hreturns
        exact absurd (hm.live v physical hv) hreturns
      | some p =>
        rw [hp, Option.elim_some, decide_eq_true_eq] at hreturns
        rw [hp, ← hreturns] at hprevious
        exact hm.injective v effect physical hv hprevious.symm
    refine mapped_phase h (get?_setPhase s id op _) (fun v v' p hv hv' => ?_) (fun v p hv => ?_)
      ?_ (fun v hv => ?_) hm.parked
    · simp only [Dict.get?_insert] at hv hv'
      split at hv
      · next heq =>
        cases hv
        split at hv'
        · next heq' => rw [heq, heq']
        · rw [heq, hother v' hv']
      · split at hv'
        · next heq' =>
          cases hv'
          rw [heq', hother v hv]
        · exact hm.injective v v' p hv hv'
    · simp only [Dict.get?_insert] at hv
      split at hv
      · cases hv
        exact Finset.mem_insert_self _ _
      · exact Finset.mem_insert_of_mem (hm.live v p hv)
    · unfold Fits
      rw [hkind]
      refine ⟨Dict.get?_insert_self _ _ _, hpending, fun p hp => ?_⟩
      unfold uploadReturns at hreturns
      rw [hp, Option.elim_some, decide_eq_true_eq] at hreturns
      exact hreturns.symm
    · exact ⟨(pending_current hm h hv).1, trivial⟩
  | acknowledged id op effect previous physical h hphase hkind =>
    have hfits := hm.fits id op h.get
    unfold Fits at hfits
    rw [hphase, hkind] at hfits
    refine mapped_phase h (get?_setPhase s id op _) hm.injective hm.live ?_ (fun v hv => ?_)
      hm.parked
    · unfold Fits
      rw [hkind]
      exact ⟨hfits.1, hfits.2.1⟩
    · exact ⟨(pending_current hm h hv).1, trivial⟩
  | rolledBack id op effect previous physical erased h hphase hkind =>
    have hfits := hm.fits id op h.get
    unfold Fits at hfits
    rw [hphase, hkind] at hfits
    obtain ⟨hmapped, -, hprevious⟩ := hfits
    have hgone := parked_discard hm h hkind
    -- What is mapped after the rollback was mapped before it.
    have hsub (v : V) (p : P) (hv : (previous.elim (s.effects.erase effect)
        (s.effects.insert effect)).get? v = some p) :
        s.effects.get? v = some p ∧ (previous = none → v ≠ effect) := by
      cases hp : previous with
      | none =>
        rw [hp, Option.elim_none, Dict.get?_erase] at hv
        split at hv
        · cases hv
        · next hne => exact ⟨hv, fun _ => hne⟩
      | some q =>
        rw [hp, Option.elim_some, Dict.get?_insert] at hv
        refine ⟨?_, fun hnone => by cases hnone⟩
        split at hv
        · next heq =>
          cases hv
          rw [heq, hmapped, hprevious p hp]
        · exact hv
    refine mapped_phase h (get?_setPhase s id op _) (fun v v' p hv hv' => ?_) (fun v p hv => ?_)
      (fits_idle (.inr rfl)) (fun v hv => absurd hv (hgone v).1) fun v play hplay => ?_
    · exact hm.injective v v' p (hsub v p hv).1 (hsub v' p hv').1
    · obtain ⟨hold, hne⟩ := hsub v p hv
      change p ∈ if previous = some physical ∨ ¬ erased then s.live else s.live.erase physical
      split
      · exact hm.live v p hold
      · next hfresh =>
        rw [not_or] at hfresh
        have hnone : previous = none := by
          cases hp : previous with
          | none => rfl
          | some q => exact absurd (by rw [hp, hprevious q hp]) hfresh.1
        refine Finset.mem_erase.mpr ⟨?_, hm.live v p hold⟩
        rintro rfl
        exact hne hnone (hm.injective v effect p hold hmapped)
    · change play ∈ (s.queuedUploadPlays.erase effect).getD v [] at hplay
      rw [(hgone v).2] at hplay
      cases hplay
  | finished id op effect physical h hphase hkind hmapped =>
    have hgone := parked_discard hm h hkind
    refine mapped_phase h (get?_setPhase s id op _) hm.injective hm.live ?_
      (fun v hv => absurd hv (hgone v).1) fun v play hplay => ?_
    · unfold Fits
      rw [hkind]
      exact ⟨hmapped, fun play hplay => (hm.parked effect play hplay).2⟩
    · change play ∈ (s.queuedUploadPlays.erase effect).getD v [] at hplay
      rw [(hgone v).2] at hplay
      cases hplay
  | mismatched id op effect physical h hphase hkind hmapped =>
    have hfits := hm.fits id op h.get
    unfold Fits at hfits
    rw [hphase, hkind] at hfits
    exact absurd hfits.1 hmapped
  | flushed id op effect physical play plays h hphase hkind =>
    have hfits := hm.fits id op h.get
    unfold Fits at hfits
    rw [hphase, hkind] at hfits
    refine mapped_quiet hm h (by simp [hphase, Parks]) (get?_setPhase s id op _) hm.injective
      hm.live ?_ rfl rfl
    unfold Fits
    rw [hkind]
    exact ⟨hfits.1, fun play' hplay => hfits.2 play' (List.mem_cons_of_mem _ hplay)⟩
  | erased id op effect physical h hphase hkind =>
    have hfits := hm.fits id op h.get
    unfold Fits at hfits
    rw [hphase, hkind] at hfits
    refine mapped_quiet hm h (by simp [hphase, Parks]) (get?_setPhase s id op _) hm.injective
      (fun v p hv => ?_) (fits_idle (.inr rfl)) rfl rfl
    refine Finset.mem_erase.mpr ⟨?_, hm.live v p hv⟩
    rintro rfl
    exact hfits.2.2 v hv
  | kept id op effect physical h hphase hkind =>
    have hfits := hm.fits id op h.get
    unfold Fits at hfits
    rw [hphase, hkind] at hfits
    obtain ⟨-, hphysical, hother⟩ := hfits
    refine mapped_quiet hm h (by simp [hphase, Parks]) (get?_setPhase s id op _)
      (fun v v' p hv hv' => ?_) (fun v p hv => ?_) (fits_idle (.inr rfl)) rfl rfl
    · simp only [Dict.get?_insert] at hv hv'
      split at hv
      · next heq =>
        cases hv
        split at hv'
        · next heq' => rw [heq, heq']
        · exact absurd hv' (hother v')
      · split at hv'
        · cases hv'
          exact absurd hv (hother v)
        · exact hm.injective v v' p hv hv'
    · simp only [Dict.get?_insert] at hv
      split at hv
      · cases hv
        exact hphysical
      · exact hm.live v p hv
  | forgotten id op htail hget hdone => exact mapped_same hm rfl rfl rfl rfl hm.parked

end Moves

end Keymasq.Feedback.Effects
