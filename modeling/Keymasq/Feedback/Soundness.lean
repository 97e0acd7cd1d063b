import Keymasq.Feedback.Established
import Keymasq.Feedback.Progress

/-!
# The effect map is sound

Runs from the start: the map stays injective and live, plays are written for what is
mapped, and a play of an established effect is written once.
-/

namespace Keymasq.Feedback.Soundness
open Foundation Transition Custody Proxy Sequence Effects Plays Established Progress


variable {V P : Type} [DecidableEq V]

/- `numbered`: the plays of operations came in. -/
structure Sound (s : State V P) : Prop where
  serial : Serial s
  mapped : Mapped s
  kept : Kept s
  established : Established s
  numbered : ∀ id op play, s.operations.get? id = some op → op.kind = .play play →
    play.number < s.arrived.length

section Steps

variable {s t : State V P} {id : Nat} {op : Operation V P}

variable [DecidableEq P]

/-- What a move does to the operations: one changes its phase, or a new one comes. -/
theorem kinds_move (hmove : Move s t) (j : Nat) (g : Operation V P)
    (hg : t.operations.get? j = some g) :
    (∃ g', s.operations.get? j = some g' ∧ g.kind = g'.kind) ∨ j = s.nextOperation ∧
      ∀ play, g.kind = .play play → play.number = s.arrived.length ∧
        t.arrived.length = s.arrived.length + 1 := by
  have hphase {id : Nat} {op : Operation V P} {phase : Phase V P} (h : Current s id op)
      (hg : (setPhase s id op phase).operations.get? j = some g) :
      ∃ g', s.operations.get? j = some g' ∧ g.kind = g'.kind := by
    rw [get?_setPhase] at hg
    split at hg
    · next heq =>
      cases hg
      exact ⟨op, heq ▸ h.get, rfl⟩
    · exact ⟨g, hg, rfl⟩
  have hnew {kind : Kind V} (hg : (s.operations.insert s.nextOperation
      { kind := kind, previous := s.operationTail }).get? j = some g) :
      (∃ g', s.operations.get? j = some g' ∧ g.kind = g'.kind) ∨
        j = s.nextOperation ∧ g.kind = kind := by
    rw [Dict.get?_insert] at hg
    split at hg
    · next heq =>
      cases hg
      exact .inr ⟨heq, rfl⟩
    · exact .inl ⟨g, hg, rfl⟩
  cases hmove with
  | requested kind hrequest =>
    obtain hold | ⟨hj, hkind⟩ := hnew hg
    · exact .inl hold
    · refine .inr ⟨hj, fun play hplay => ?_⟩
      rw [hkind] at hplay
      rw [hplay] at hrequest
      cases hrequest
  | arrived effect value =>
    unfold playEvent at hg ⊢
    simp only at hg ⊢
    split at hg
    · exact .inl ⟨g, hg, rfl⟩
    · next hpending =>
      simp only [if_neg hpending]
      split at hg
      · exact .inl ⟨g, hg, rfl⟩
      · next physical hmapped =>
        obtain hold | ⟨hj, hkind⟩ := hnew hg
        · exact .inl hold
        · refine .inr ⟨hj, fun play hplay => ?_⟩
          rw [hkind] at hplay
          cases hplay
          exact ⟨rfl, List.length_append⟩
  | scheduled =>
    obtain hold | ⟨hj, hkind⟩ := hnew hg
    · exact .inl hold
    · refine .inr ⟨hj, fun play hplay => ?_⟩
      rw [hkind] at hplay
      cases hplay
  | rejected id op h
  | begun id op effect h
  | taken id op effect physical h
  | unmapped id op play h
  | lookedUp id op play physical h
  | passed id op h
  | failed id op effect previous h
  | published id op effect previous physical h
  | acknowledged id op effect previous physical h
  | rolledBack id op effect previous physical erased h
  | finished id op effect physical h
  | mismatched id op effect physical h
  | flushed id op effect physical play plays h
  | uploaded id op effect physical h
  | played id op play physical h
  | erased id op effect physical h
  | kept id op effect physical h => exact .inl (hphase h hg)
  | forgotten id op => exact .inl ⟨g, hg, rfl⟩

/-- New operations have later ids, and what came in stays. -/
theorem grows_move (hmove : Move s t) :
    s.nextOperation ≤ t.nextOperation ∧ ∃ new, t.arrived = s.arrived ++ new := by
  cases hmove with
  | requested kind
  | scheduled => exact ⟨Nat.le_succ _, [], (List.append_nil _).symm⟩
  | arrived effect value =>
    unfold playEvent
    simp only
    split
    · exact ⟨Nat.le_refl _, _, rfl⟩
    · split
      · exact ⟨Nat.le_refl _, _, rfl⟩
      · exact ⟨Nat.le_succ _, _, rfl⟩
  | _ => exact ⟨Nat.le_refl _, [], (List.append_nil _).symm⟩

theorem sound_step {a : Step V P} (h : Sound s) (hstep : step s a = some t) : Sound t := by
  have hmove := step_moves h.serial hstep
  refine ⟨serial_move h.serial hmove, mapped_move h.serial h.mapped hmove,
    kept_move h.serial h.kept hmove, established_move h.serial h.mapped h.established hmove,
    fun id op play hget hkind => ?_⟩
  obtain ⟨-, new, hnew⟩ := grows_move hmove
  obtain ⟨g, hg, hsame⟩ | ⟨-, hplay⟩ := kinds_move hmove id op hget
  · have hlt := h.numbered id g play hg (hsame ▸ hkind)
    rw [hnew, List.length_append]
    omega
  · obtain ⟨hnumber, hlength⟩ := hplay play hkind
    omega

omit [DecidableEq P] in
theorem sound_initial : Sound ({} : State V P) := by
  refine ⟨serial_initial, ⟨fun v v' p hv => ?_, fun v p hv => ?_, fun id op hget => ?_,
    fun v hv => ?_, fun v play hplay => ?_⟩, kept_initial, fun u op v hget => ?_,
    fun id op play hget => ?_⟩
  · cases hv
  · cases hv
  · cases hget
  · cases hv
  · cases hplay
  · cases hget
  · cases hget

theorem sound_run {as : List (Step V P)} (h : Sound s) (hrun : run step s as = some t) : Sound t :=
  run_invariant (fun _ _ _ h hstep => sound_step h hstep) h hrun

theorem later_run {as : List (Step V P)} (h : Sound s) (hrun : run step s as = some t) :
    Later s t := by
  induction as generalizing s with
  | nil =>
    cases hrun
    exact Later.refl _
  | cons a as ih =>
    obtain ⟨u, hu, hrest⟩ := run_cons_eq_some.mp hrun
    exact (later_move h.serial (step_moves h.serial hu)).trans (ih (sound_step h hu) hrest)

/-- A play is written for what its effect is mapped to. -/
theorem write_mapped {a : Step V P} (h : Sound s) (hstep : step s a = some t) :
    t.written = s.written ∨ ∃ play physical, t.written = s.written ++ [(play, physical)] ∧
      s.effects.get? play.effect = some physical := by
  have hfits {id : Nat} {op : Operation V P} (hc : Current s id op) := h.mapped.fits id op hc.get
  unfold Fits at hfits
  cases step_moves h.serial hstep with
  | arrived effect value =>
    refine .inl ?_
    unfold playEvent
    simp only
    split
    · rfl
    · split
      · rfl
      · rfl
  | flushed id op effect physical play plays hc hphase hkind =>
    have hplays := hfits hc
    rw [hphase, hkind] at hplays
    refine .inr ⟨play, physical, rfl, ?_⟩
    rw [hplays.2 play List.mem_cons_self]
    exact hplays.1
  | played id op play physical hc hphase hkind =>
    have hmapped := hfits hc
    rw [hphase, hkind] at hmapped
    exact .inr ⟨play, physical, rfl, hmapped⟩
  | _ => exact .inl rfl

end Steps

/-! ## One play -/

section Tracked

/-- From the acknowledged upload `u` of its effect on, the play `x` was to be the
operation `k`, or came before it. -/
structure Tracked (u k : Nat) (x : Play V) (s : State V P) : Prop where
  arrived : x ∈ s.arrived
  undropped : x ∉ s.dropped
  scheduled : k ≤ s.nextOperation
  acknowledged : ∃ op, s.operations.get? u = some op ∧ op.kind = .upload x.effect ∧
    Acknowledged op.phase
  parked : x ∈ s.queuedUploadPlays.getD x.effect [] →
    ∀ id op, s.operations.get? id = some op → Parks op.phase → id < k
  own : ∀ id op, s.operations.get? id = some op → op.kind = .play x → id = k

variable {s t r : State V P} {id u k : Nat} {op : Operation V P} {x : Play V}

/-- Nothing took the effect before the play. -/
def Clear (t : State V P) (u k : Nat) (v : V) : Prop :=
  ∀ j g, u < j → j < k → t.operations.get? j = some g → ¬ Takes g v

omit [DecidableEq V] in
theorem Clear.earlier (hclear : Clear t u k x.effect) (hlater : Later s t) :
    Clear s u k x.effect := by
  intro j g hu hk hg htakes
  obtain ⟨g', hg', hkind, hdone, -⟩ := hlater j g hg
  refine hclear j g' hu hk hg' ?_
  obtain herase | ⟨hupload, hphase⟩ := htakes
  · exact .inl (hkind.trans herase)
  · have hsame := hdone (by unfold Operation.isDone; rw [hphase])
    rw [hsame]
    exact .inr ⟨hupload, hphase⟩

/-- The current operation comes after the acknowledged upload, or is it. -/
theorem Tracked.upload_le (h : Tracked u k x s) (hc : Current s id op) : u ≤ id := by
  obtain ⟨g, hg, -, hack⟩ := h.acknowledged
  exact started_le hc hg (not_waiting_of_acknowledged hack)

/-- A play of the effect finds it mapped. -/
theorem Tracked.mapped (h : Tracked u k x s) (hs : Sound s) (hclear : Clear s u k x.effect)
    (hrest : ∀ j g, k ≤ j → s.operations.get? j = some g → g.phase ≠ .waiting →
      ¬ Takes g x.effect) : s.effects.get? x.effect ≠ none := by
  obtain ⟨g, hg, hkind, hack⟩ := h.acknowledged
  refine hs.established u g x.effect hg hkind hack fun j g' hj hg' hstarted => ?_
  by_cases hk : j < k
  · exact hclear j g' hj hk hg'
  · exact hrest j g' (by omega) hg' hstarted

/-- An upload that was not acknowledged does not fail while the play is parked for it. -/
theorem Tracked.not_discarded (h : Tracked u k x s) (hs : Sound s) (hc : Current s id op)
    {effect : V} (hkind : op.kind = .upload effect) (hparks : Parks op.phase)
    (hack : ¬ Acknowledged op.phase) (hclear : Clear t u k x.effect)
    (hfailed : t.operations.get? id = some { op with phase := .done false }) :
    x ∉ s.queuedUploadPlays.getD effect [] := by
  intro hx
  have heffect := (hs.mapped.parked effect x hx).2
  rw [← heffect] at hx hkind
  have hlt : u < id := by
    have hle := h.upload_le hc
    obtain ⟨g, hg, -, hacked⟩ := h.acknowledged
    by_contra hnot
    have heq : u = id := by omega
    rw [heq, hc.get] at hg
    cases hg
    exact hack hacked
  exact hclear id _ hlt (h.parked hx id op hc.get hparks) hfailed (.inr ⟨hkind, rfl⟩)

/-- The move leaves the play where it is, or its operation goes on with it. -/
theorem tracked_phase (h : Tracked u k x s) (hlater : Later s t) (hc : Current s id op)
    {phase : Phase V P}
    (hops : ∀ j, t.operations.get? j =
      if j = id then some { op with phase := phase } else s.operations.get? j)
    (hnext : t.nextOperation = s.nextOperation) (harrived : t.arrived = s.arrived)
    (hdropped : x ∉ t.dropped)
    (hparked : x ∈ t.queuedUploadPlays.getD x.effect [] →
      x ∈ s.queuedUploadPlays.getD x.effect [] ∧ (Parks phase → Parks op.phase)) :
    Tracked u k x t := by
  refine ⟨harrived ▸ h.arrived, hdropped, by rw [hnext]; exact h.scheduled, ?_, fun hx j g hg hp =>
    ?_, fun j g hg hkind => ?_⟩
  · obtain ⟨g, hg, hkind, hack⟩ := h.acknowledged
    obtain ⟨g', hg', hkind', -, hack'⟩ := hlater u g hg
    exact ⟨g', hg', hkind'.trans hkind, hack' hack⟩
  · obtain ⟨hx, hparks⟩ := hparked hx
    rw [hops] at hg
    split at hg
    · next heq =>
      cases hg
      exact h.parked hx j op (heq ▸ hc.get) (hparks hp)
    · exact h.parked hx j g hg hp
  · rw [hops] at hg
    split at hg
    · next heq =>
      cases hg
      exact h.own j op (heq ▸ hc.get) hkind
    · exact h.own j g hg hkind

theorem tracked_schedule (hs : Serial s) (h : Tracked u k x s) {kind : Kind V}
    (hkind : kind ≠ .play x)
    (hops : t.operations = s.operations.insert s.nextOperation
      { kind := kind, previous := s.operationTail })
    (hnext : t.nextOperation = s.nextOperation + 1) (harrived : x ∈ t.arrived)
    (hdropped : t.dropped = s.dropped) (hqueued : t.queuedUploadPlays = s.queuedUploadPlays) :
    Tracked u k x t := by
  have hold {j : Nat} {g : Operation V P} (hg : t.operations.get? j = some g) :
      s.operations.get? j = some g ∨ g = { kind := kind, previous := s.operationTail } := by
    rw [hops, Dict.get?_insert] at hg
    split at hg
    · cases hg
      exact .inr rfl
    · exact .inl hg
  refine ⟨harrived, by rw [hdropped]; exact h.undropped, by have := h.scheduled; omega, ?_,
    fun hx j g hg hp => ?_, fun j g hg hplay => ?_⟩
  · obtain ⟨g, hg, hrest⟩ := h.acknowledged
    have hlt := hs.domain u g hg
    exact ⟨g, by rw [hops, Dict.get?_insert_of_ne _ _ (by omega), hg], hrest⟩
  · rw [hqueued] at hx
    obtain hg | rfl := hold hg
    · exact h.parked hx j g hg hp
    · exact hp.elim
  · obtain hg | rfl := hold hg
    · exact h.own j g hg hplay
    · exact absurd hplay hkind

theorem tracked_same (h : Tracked u k x s) (hops : t.operations = s.operations)
    (hnext : t.nextOperation = s.nextOperation) (harrived : x ∈ t.arrived)
    (hdropped : x ∉ t.dropped)
    (hqueued : x ∈ t.queuedUploadPlays.getD x.effect [] →
      x ∈ s.queuedUploadPlays.getD x.effect []) : Tracked u k x t := by
  refine ⟨harrived, hdropped, by rw [hnext]; exact h.scheduled, by rw [hops]; exact h.acknowledged,
    fun hx => ?_, by rw [hops]; exact h.own⟩
  rw [hops]
  exact h.parked (hqueued hx)

theorem tracked_playEvent (hs : Sound s) (h : Tracked u k x s) (effect : V) (value : Int) :
    Tracked u k x (playEvent s effect value) := by
  have hlt := hs.kept.numbered x h.arrived
  have hne : x ≠ { number := s.arrived.length, effect, value } := by
    rintro rfl
    exact absurd hlt (Nat.lt_irrefl _)
  have harrived (plays : List (Play V)) : x ∈ s.arrived ++ plays :=
    List.mem_append_left _ h.arrived
  unfold playEvent
  simp only
  split
  · refine tracked_same h rfl rfl (harrived _) h.undropped fun hx => ?_
    simp only [Dict.getD, Dict.get?_insert] at hx
    split at hx
    · next heq =>
      rw [← heq] at hx
      obtain hx | hx := List.mem_append.mp hx
      · exact hx
      · exact absurd (List.mem_singleton.mp hx) (by rwa [heq])
    · exact hx
  · split
    · refine tracked_same h rfl rfl (harrived _) (fun hx => ?_) fun hx => hx
      obtain hx | hx := List.mem_append.mp hx
      · exact h.undropped hx
      · exact hne (List.mem_singleton.mp hx)
    · refine tracked_schedule hs.serial h ?_ rfl rfl (harrived _) rfl rfl
      intro heq
      cases heq
      exact hne rfl

variable [DecidableEq P]

/-- The move keeps the play, if nothing takes its effect until the end. -/
theorem tracked_move (hs : Sound s) (h : Tracked u k x s) (hmove : Move s t)
    (hclear : Clear t u k x.effect) : Tracked u k x t := by
  have hlater := later_move hs.serial hmove
  have hgoes {id : Nat} {op : Operation V P} {phase : Phase V P} (hc : Current s id op)
      (hops : ∀ j, t.operations.get? j =
        if j = id then some { op with phase := phase } else s.operations.get? j)
      (hparks : Parks phase → Parks op.phase)
      (hnext : t.nextOperation = s.nextOperation) (harrived : t.arrived = s.arrived)
      (hdropped : t.dropped = s.dropped) (hqueued : t.queuedUploadPlays = s.queuedUploadPlays) :
      Tracked u k x t := by
    refine tracked_phase h hlater hc hops hnext harrived (by rw [hdropped]; exact h.undropped)
      fun hx => ⟨?_, hparks⟩
    rwa [hqueued] at hx
  cases hmove with
  | requested kind hrequest =>
    refine tracked_schedule hs.serial h ?_ rfl rfl h.arrived rfl rfl
    rintro rfl
    cases hrequest
  | arrived effect value => exact tracked_playEvent hs h effect value
  | scheduled => exact tracked_schedule hs.serial h (by simp) rfl rfl h.arrived rfl rfl
  | rejected id op hc
  | taken id op effect physical hc
  | lookedUp id op play physical hc
  | passed id op hc
  | flushed id op effect physical play plays hc
  | uploaded id op effect physical hc
  | played id op play physical hc
  | erased id op effect physical hc
  | kept id op effect physical hc =>
    exact hgoes hc (get?_setPhase s id op _) (fun hp => hp.elim) rfl rfl rfl rfl
  | begun id op effect hc hphase hkind =>
    refine tracked_phase h hlater hc (get?_setPhase s id op _) rfl rfl h.undropped fun hx => ?_
    have hpending := (hs.mapped.parked x.effect x hx).1
    exact absurd hpending (not_pending hs.mapped hc (by simp [hphase, Parks]) _)
  | unmapped id op play hc hphase hkind hmapped =>
    refine tracked_phase h hlater hc (get?_setPhase s id op _) rfl rfl (fun hx => ?_)
      fun hx => ⟨hx, fun hp => hp.elim⟩
    obtain hx | hx := List.mem_append.mp hx
    · exact h.undropped hx
    · rw [← List.mem_singleton.mp hx] at hkind hmapped
      have hid := h.own id op hc.get hkind
      refine h.mapped hs (hclear.earlier hlater) (fun j g hj hg hstarted htakes => ?_) hmapped
      have hle := started_le hc hg hstarted
      have heq : j = id := by omega
      rw [heq, hc.get] at hg
      cases hg
      unfold Takes at htakes
      rw [hkind] at htakes
      simp at htakes
  | failed id op effect previous hc hphase hkind =>
    have hkeeps := h.not_discarded hs hc hkind (by simp [hphase, Parks])
      (by simp [hphase, Acknowledged]) hclear (get?_setPhase_self s id op _)
    refine tracked_phase h hlater hc (get?_setPhase s id op _) rfl rfl (fun hx => ?_)
      fun hx => ?_
    · obtain hx | hx := List.mem_append.mp hx
      · exact h.undropped hx
      · exact hkeeps hx
    · change x ∈ (s.queuedUploadPlays.erase effect).getD x.effect [] at hx
      rw [(parked_discard hs.mapped hc hkind x.effect).2] at hx
      cases hx
  | published id op effect previous physical hc hphase
  | acknowledged id op effect previous physical hc hphase =>
    exact hgoes hc (get?_setPhase s id op _) (fun _ => by rw [hphase]; trivial) rfl rfl rfl rfl
  | rolledBack id op effect previous physical erased hc hphase hkind =>
    have hkeeps := h.not_discarded hs hc hkind (by simp [hphase, Parks])
      (by simp [hphase, Acknowledged]) hclear (get?_setPhase_self _ id op _)
    refine tracked_phase h hlater hc (get?_setPhase s id op _) rfl rfl (fun hx => ?_)
      fun hx => ?_
    · obtain hx | hx := List.mem_append.mp hx
      · exact h.undropped hx
      · exact hkeeps hx
    · change x ∈ (s.queuedUploadPlays.erase effect).getD x.effect [] at hx
      rw [(parked_discard hs.mapped hc hkind x.effect).2] at hx
      cases hx
  | finished id op effect physical hc hphase hkind hmapped =>
    refine tracked_phase h hlater hc (get?_setPhase s id op _) rfl rfl h.undropped fun hx => ?_
    change x ∈ (s.queuedUploadPlays.erase effect).getD x.effect [] at hx
    rw [(parked_discard hs.mapped hc hkind x.effect).2] at hx
    cases hx
  | mismatched id op effect physical hc hphase hkind hmapped =>
    have hfits := hs.mapped.fits id op hc.get
    unfold Fits at hfits
    rw [hphase, hkind] at hfits
    exact absurd hfits.1 hmapped
  | forgotten id op htail =>
    exact tracked_same h rfl rfl h.arrived h.undropped fun hx => hx

theorem tracked_run {as : List (Step V P)} (hs : Sound s) (h : Tracked u k x s)
    (hrun : run step s as = some t) (hclear : Clear t u k x.effect) : Tracked u k x t := by
  induction as generalizing s with
  | nil =>
    cases hrun
    exact h
  | cons a as ih =>
    obtain ⟨r, hr, hrest⟩ := run_cons_eq_some.mp hrun
    have hsound := sound_step hs hr
    exact ih hsound (tracked_move hs h (step_moves hs.serial hr)
      (hclear.earlier (later_run hsound hrest))) hrest

omit [DecidableEq P] in
/-- The play comes in: its effect is established. -/
theorem tracked_arrived (hs : Sound s) {effect : V} (value : Int)
    (hget : s.operations.get? u = some op) (hkind : op.kind = .upload effect)
    (hack : Acknowledged op.phase) (hclear : Clear s u s.nextOperation effect) :
    Tracked u s.nextOperation { number := s.arrived.length, effect, value }
      (playEvent s effect value) := by
  have hmapped : s.effects.get? effect ≠ none := by
    refine hs.established u op effect hget hkind hack fun j g hj hg _ => ?_
    exact hclear j g hj (hs.serial.domain j g hg) hg
  have hlt := hs.serial.domain u op hget
  have hundropped : { number := s.arrived.length, effect, value } ∉ s.dropped := by
    intro hx
    have hmem := (hs.kept.owners.all _).mp (.inl (List.mem_append_right _ hx))
    exact absurd (hs.kept.numbered _ hmem) (Nat.lt_irrefl _)
  have hown (id : Nat) (g : Operation V P) (hg : s.operations.get? id = some g)
      (hplay : g.kind = .play { number := s.arrived.length, effect, value }) :
      id = s.nextOperation :=
    absurd (hs.numbered id g _ hg hplay) (Nat.lt_irrefl _)
  have harrived : { number := s.arrived.length, effect, value } ∈
      s.arrived ++ [({ number := s.arrived.length, effect, value } : Play V)] :=
    List.mem_append_right _ (List.mem_singleton_self _)
  unfold playEvent
  simp only
  split
  · exact ⟨harrived, hundropped, Nat.le_refl _, ⟨op, hget, hkind, hack⟩,
      fun _ id g hg _ => hs.serial.domain id g hg, hown⟩
  · split
    · next hnone => exact absurd hnone hmapped
    · refine ⟨harrived, hundropped, Nat.le_succ _, ⟨op, ?_, hkind, hack⟩, fun _ id g hg hp => ?_,
        fun id g hg hplay => ?_⟩
      · simp only [schedule]
        rw [Dict.get?_insert_of_ne _ _ (by omega), hget]
      · simp only [schedule, Dict.get?_insert] at hg
        split at hg
        · cases hg
          exact hp.elim
        · exact hs.serial.domain id g hg
      · simp only [schedule, Dict.get?_insert] at hg
        split at hg
        · assumption
        · exact hown id g hg hplay

omit [DecidableEq P] in
/-- When all operations are finished, the play is written. -/
theorem Tracked.written (h : Tracked u k x t) (hs : Sound t) (hquiet : Quiet t) :
    (t.written.map Prod.fst).count x = 1 := by
  have hnodup := hs.kept.owners.spent_nodup
  refine List.count_eq_one_of_mem hnodup.of_append_left ?_
  obtain hspent | ⟨i, hheld⟩ := (hs.kept.owners.all x).mpr h.arrived
  · obtain hx | hx := List.mem_append.mp hspent
    · exact hx
    · exact absurd hx h.undropped
  · cases i with
    | inl v =>
      obtain ⟨id, op, hget, -, hparks⟩ := hs.mapped.pending v (hs.mapped.parked v x hheld).1
      have hdone := hquiet id op hget
      rw [(parks_active hparks).2] at hdone
      cases hdone
    | inr id =>
      change x ∈ (t.operations.get? id).elim [] carries at hheld
      cases hget : t.operations.get? id with
      | none =>
        rw [hget] at hheld
        cases hheld
      | some op =>
        rw [hget, Option.elim_some] at hheld
        have hdone := hquiet id op hget
        unfold Operation.isDone at hdone
        unfold carries at hheld
        cases hphase : op.phase with
        | done ok =>
          rw [hphase] at hheld
          cases hheld
        | _ =>
          rw [hphase] at hdone
          cases hdone

end Tracked

/-! ## Runs -/

section Runs

variable {t : State V P}

variable [DecidableEq P]

/-- In every run the map is injective and live, a play is written for what its effect is
mapped to and not twice, and all operations can be finished. Then a play that came in after
an acknowledged upload of its effect, with no erase request and no request of a failed
upload for it in between, is written once. -/
theorem effect_map_sound {as : List (Step V P)} (hrun : run step {} as = some t) :
    (∀ v v' p, t.effects.get? v = some p → t.effects.get? v' = some p → v = v') ∧
      (∀ v p, t.effects.get? v = some p → p ∈ t.live) ∧
      (∀ a u, step t a = some u → u.written = t.written ∨ ∃ play physical,
        u.written = t.written ++ [(play, physical)] ∧
        t.effects.get? play.effect = some physical) ∧
      (t.written.map Prod.fst).Nodup ∧
      (∃ more u, (∀ a ∈ more, answers a = true) ∧ run step t more = some u ∧ Quiet u) ∧
      ∀ before after effect value s u op, as = before ++ .play effect value :: after →
        run step {} before = some s → s.operations.get? u = some op →
        op.kind = .upload effect → Acknowledged op.phase →
        Clear t u s.nextOperation effect → Quiet t →
        (t.written.map Prod.fst).count { number := s.arrived.length, effect, value } = 1 := by
  have hsound := sound_run sound_initial hrun
  refine ⟨hsound.mapped.injective, hsound.mapped.live, fun a u hstep => write_mapped hsound hstep,
    hsound.kept.owners.spent_nodup.of_append_left, can_finish hsound.serial hsound.mapped, ?_⟩
  intro before after effect value s u op has hbefore hget hkind hack hclear hquiet
  rw [has, run_append, hbefore, Option.bind_some, run_cons] at hrun
  have hs := sound_run sound_initial hbefore
  have hplay := sound_step hs (rfl : step s (.play effect value) = some _)
  have hlater := (later_move hs.serial (.arrived effect value)).trans (later_run hplay hrun)
  have htracked := tracked_arrived hs value hget hkind hack
    (hclear.earlier (x := { number := s.arrived.length, effect, value }) hlater)
  exact (tracked_run hplay htracked hrun hclear).written hsound hquiet

end Runs

/-- An effect is uploaded again while a play of it comes in, which is parked; later the
effect is erased. -/
def reuploaded : List (Step Nat Nat) :=
  [.uploadRequest 0, .start 0 true, .uploadEffect 0 (some 5), .endUpload 0 true true,
    .finishUpload 0, .write 0, .uploadRequest 0, .start 1 true, .play 0 1,
    .uploadEffect 1 (some 5), .endUpload 1 true true, .finishUpload 1, .write 1, .write 1,
    .eraseRequest 0, .start 2 true, .eraseEffect 2 true]

variable [DecidableEq P]

theorem reuploaded_play_written :
    ∃ t, run step ({} : State Nat Nat) reuploaded = some t ∧
      (t.written.map Prod.fst).count { number := 0, effect := 0, value := 1 } = 1 := by
  have hsome : (run step ({} : State Nat Nat) reuploaded).isSome = true := by decide
  obtain ⟨t, ht⟩ := Option.isSome_iff_exists.mp hsome
  have hplay : (run step ({} : State Nat Nat) (reuploaded.take 8)).any (fun s =>
      s.arrived = [] ∧ s.nextOperation = 2 ∧ (s.operations.get? 0).any fun op =>
        op.kind = .upload 0 ∧ op.phase = .done true) = true := by decide
  have hend : (run step ({} : State Nat Nat) reuploaded).any (fun t =>
      t.operations.keys = [0, 1, 2] ∧ (t.operations.get? 1).any (fun op =>
        op.kind = .upload 0 ∧ op.phase = .done true) ∧
      ∀ op ∈ t.operations.values, op.isDone = true) = true := by decide
  obtain ⟨s, hs, hfacts⟩ := (Option.any_eq_true _ _).mp hplay
  rw [ht, Option.any_some, decide_eq_true_eq] at hend
  rw [decide_eq_true_eq] at hfacts
  obtain ⟨harrived, hnext, hupload⟩ := hfacts
  obtain ⟨op, hget, hop⟩ := (Option.any_eq_true _ _).mp hupload
  rw [decide_eq_true_eq] at hop
  obtain ⟨-, hsecond, hdone⟩ := hend
  refine ⟨t, ht, ?_⟩
  obtain ⟨-, -, -, -, -, hwritten⟩ := effect_map_sound ht
  have hcount := hwritten (reuploaded.take 8) (reuploaded.drop 9) 0 1 s 0 op rfl hs hget hop.1
    (by rw [hop.2]; rfl) (fun j g hj hk hg htakes => ?_)
    fun id op hget => hdone op (Dict.mem_values_iff.mpr ⟨id, hget⟩)
  · rw [harrived] at hcount
    exact hcount
  · obtain ⟨op', hget', hop'⟩ := (Option.any_eq_true _ _).mp hsecond
    rw [decide_eq_true_eq] at hop'
    have hj : j = 1 := by omega
    rw [hj, hget'] at hg
    cases hg
    unfold Takes at htakes
    rw [hop'.1, hop'.2] at htakes
    simp at htakes

end Keymasq.Feedback.Soundness
