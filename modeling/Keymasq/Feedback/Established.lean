import Keymasq.Feedback.Plays

/-!
# Established effects

An effect whose upload was acknowledged stays mapped until an erase is started, or an
upload fails. A play that comes in between is not dropped.
-/

namespace Keymasq.Feedback.Established
open Foundation Transition Custody Proxy Sequence Effects Plays


variable {V P : Type} [DecidableEq V]

/-- The upload was acknowledged as successful. -/
def Acknowledged : Phase V P → Prop
  | .acknowledged _ => True
  | .flushing _ _ => True
  | .done ok => ok = true
  | _ => False

/-- An erase of the effect, or a failed upload of it. -/
def Takes (op : Operation V P) (effect : V) : Prop :=
  op.kind = .erase effect ∨ op.kind = .upload effect ∧ op.phase = .done false

def Established (s : State V P) : Prop :=
  ∀ u op v, s.operations.get? u = some op → op.kind = .upload v → Acknowledged op.phase →
    (∀ j g, u < j → s.operations.get? j = some g → g.phase ≠ .waiting → ¬ Takes g v) →
    s.effects.get? v ≠ none

section Moves

variable {s t : State V P} {id : Nat} {op : Operation V P}

omit [DecidableEq V] in
theorem started_le (h : Current s id op) {j : Nat} {g : Operation V P}
    (hg : s.operations.get? j = some g) (hstarted : g.phase ≠ .waiting) : j ≤ id := by
  by_contra hlt
  exact hstarted (h.after j g (by omega) hg)

omit [DecidableEq V] in
theorem not_waiting_of_acknowledged {phase : Phase V P} (hack : Acknowledged phase) :
    phase ≠ .waiting := by
  rintro rfl
  exact hack

omit [DecidableEq V] in
theorem takes_phase (h : Current s id op) (phase : Phase V P) {v : V} (htakes : Takes op v) :
    Takes { op with phase := phase } v := by
  obtain herase | ⟨-, hphase⟩ := htakes
  · exact .inl herase
  · have hunfinished := h.unfinished
    unfold Operation.isDone at hunfinished
    rw [hphase] at hunfinished
    cases hunfinished

/-- The current operation goes on: what it takes out of the map, it may take. -/
theorem established_phase (he : Established s) (h : Current s id op) {phase : Phase V P}
    (hops : ∀ j, t.operations.get? j =
      if j = id then some { op with phase := phase } else s.operations.get? j)
    (hstarted : phase ≠ .waiting)
    (hmap : ∀ v, s.effects.get? v ≠ none →
      Takes { op with phase := phase } v ∨ t.effects.get? v ≠ none)
    (hack : ∀ v, op.kind = .upload v → Acknowledged phase →
      Acknowledged op.phase ∨ t.effects.get? v ≠ none) : Established t := by
  have hself : t.operations.get? id = some { op with phase := phase } := by rw [hops, if_pos rfl]
  intro u g v hg hkind hacked hlater
  by_cases hu : u = id
  · rw [hu, hself] at hg
    cases hg
    obtain hold | hnew := hack v hkind hacked
    · have hmapped := he id op v h.get hkind hold fun j g hj hg hs =>
        absurd (h.after j g hj hg) hs
      obtain htakes | hmapped := hmap v hmapped
      · obtain herase | ⟨-, hphase⟩ := htakes
        · exact absurd (hkind.symm.trans herase) (by simp)
        · change phase = _ at hphase
          change Acknowledged phase at hacked
          rw [hphase] at hacked
          cases hacked
      · exact hmapped
    · exact hnew
  · rw [hops, if_neg hu] at hg
    have hlt : u < id := by
      have hle := started_le h hg (not_waiting_of_acknowledged hacked)
      omega
    have hmapped := he u g v hg hkind hacked fun j g' hj hg' hs htakes => by
      by_cases hji : j = id
      · rw [hji, h.get] at hg'
        cases hg'
        exact hlater id _ hlt hself hstarted (takes_phase h phase htakes)
      · exact hlater j g' hj (by rw [hops, if_neg hji, hg']) hs htakes
    obtain htakes | hmapped := hmap v hmapped
    · exact absurd htakes (hlater id _ hlt hself hstarted)
    · exact hmapped

theorem established_schedule (hs : Serial s) (he : Established s) (kind : Kind V)
    (hops : t.operations = s.operations.insert s.nextOperation
      { kind := kind, previous := s.operationTail })
    (heffects : t.effects = s.effects) : Established t := by
  intro u g v hg hkind hack hlater
  rw [hops, Dict.get?_insert] at hg
  split at hg
  · cases hg
    exact hack.elim
  · rw [heffects]
    refine he u g v hg hkind hack fun j g' hj hg' => hlater j g' hj ?_
    have hlt := hs.domain j g' hg'
    rw [hops, Dict.get?_insert_of_ne _ _ (by omega), hg']

theorem established_same (he : Established s) (hops : t.operations = s.operations)
    (heffects : t.effects = s.effects) : Established t := by
  unfold Established
  rw [hops, heffects]
  exact he

variable [DecidableEq P]

theorem established_move (hs : Serial s) (hm : Mapped s) (he : Established s)
    (hmove : Move s t) : Established t := by
  cases hmove with
  | requested kind hrequest => exact established_schedule hs he kind rfl rfl
  | arrived effect value =>
    unfold playEvent
    simp only
    split
    · exact established_same he rfl rfl
    · split
      · exact established_same he rfl rfl
      · exact established_schedule hs he _ rfl rfl
  | scheduled => exact established_schedule hs he .other rfl rfl
  | rejected id op h hphase hrequest
  | begun id op effect h hphase hkind
  | unmapped id op play h hphase hkind hmapped
  | lookedUp id op play physical h hphase hkind hmapped
  | failed id op effect previous h hphase hkind =>
    exact established_phase he h (get?_setPhase s id op _) (by simp) (fun v hv => .inr hv)
      fun v hkind hack => by cases hack
  | taken id op effect physical h hphase hkind hmapped =>
    refine established_phase he h (get?_setPhase s id op _) (by simp) (fun v hv => ?_)
      fun v hkind hack => by cases hack
    by_cases heq : v = effect
    · rw [heq]
      exact .inl (.inl hkind)
    · refine .inr ?_
      change (s.effects.erase effect).get? v ≠ none
      rwa [Dict.get?_erase_of_ne _ heq]
  | passed id op h hphase hkind
  | played id op play physical h hphase hkind
  | erased id op effect physical h hphase hkind =>
    refine established_phase he h (get?_setPhase s id op _) (by simp) (fun v hv => .inr hv)
      fun v hupload _ => ?_
    rw [hkind] at hupload
    cases hupload
  | published id op effect previous physical h hphase hkind hreturns
  | kept id op effect physical h hphase hkind =>
    refine established_phase he h (get?_setPhase s id op _) (by simp) (fun v hv => .inr ?_)
      fun v hkind hack => by cases hack
    change (s.effects.insert effect physical).get? v ≠ none
    rw [Dict.get?_insert]
    split
    · simp
    · exact hv
  | acknowledged id op effect previous physical h hphase hkind =>
    refine established_phase he h (get?_setPhase s id op _) (by simp) (fun v hv => .inr hv)
      fun v hupload _ => .inr ?_
    have hfits := hm.fits id op h.get
    unfold Fits at hfits
    rw [hphase, hkind] at hfits
    rw [hkind] at hupload
    cases hupload
    change s.effects.get? effect ≠ none
    rw [hfits.1]
    simp
  | rolledBack id op effect previous physical erased h hphase hkind =>
    refine established_phase he h (get?_setPhase s id op _) (by simp) (fun v hv => ?_)
      fun v hkind hack => by cases hack
    by_cases heq : v = effect
    · rw [heq]
      exact .inl (.inr ⟨hkind, rfl⟩)
    · refine .inr ?_
      change (previous.elim (s.effects.erase effect) (s.effects.insert effect)).get? v ≠ none
      cases previous with
      | none => rwa [Option.elim_none, Dict.get?_erase_of_ne _ heq]
      | some p => rwa [Option.elim_some, Dict.get?_insert_of_ne _ _ heq]
  | finished id op effect physical h hphase hkind hmapped
  | mismatched id op effect physical h hphase hkind hmapped
  | flushed id op effect physical play plays h hphase hkind
  | uploaded id op effect physical h hphase hkind =>
    exact established_phase he h (get?_setPhase s id op _) (by simp) (fun v hv => .inr hv)
      fun v hupload _ => .inl (by rw [hphase]; trivial)
  | forgotten id op htail hget hdone => exact established_same he rfl rfl

end Moves

/-! ## What stays -/

/-- Operations keep their kind, and what they are when they are finished. -/
def Later (s t : State V P) : Prop :=
  ∀ id op, s.operations.get? id = some op → ∃ op', t.operations.get? id = some op' ∧
    op'.kind = op.kind ∧ (op.isDone = true → op' = op) ∧
    (Acknowledged op.phase → Acknowledged op'.phase)

section Later

variable {s t u : State V P} {id : Nat} {op : Operation V P}

omit [DecidableEq V] in
theorem Later.refl (s : State V P) : Later s s :=
  fun _ op hget => ⟨op, hget, rfl, fun _ => rfl, fun h => h⟩

omit [DecidableEq V] in
theorem Later.trans (hst : Later s t) (htu : Later t u) : Later s u := by
  intro id op hget
  obtain ⟨g, hg, hkind, hdone, hack⟩ := hst id op hget
  obtain ⟨f, hf, hkind', hdone', hack'⟩ := htu id g hg
  refine ⟨f, hf, hkind'.trans hkind, fun hd => ?_, fun h => hack' (hack h)⟩
  have hsame := hdone hd
  rw [hsame] at hdone'
  exact hdone' hd

omit [DecidableEq V] in
theorem later_phase (h : Current s id op) {phase : Phase V P}
    (hops : ∀ j, t.operations.get? j =
      if j = id then some { op with phase := phase } else s.operations.get? j)
    (hack : Acknowledged op.phase → Acknowledged phase) : Later s t := by
  intro j g hg
  by_cases hj : j = id
  · rw [hj, h.get] at hg
    cases hg
    refine ⟨{ op with phase := phase }, by rw [hops, if_pos hj], rfl, fun hd => ?_, hack⟩
    rw [h.unfinished] at hd
    cases hd
  · exact ⟨g, by rw [hops, if_neg hj, hg], rfl, fun _ => rfl, fun h => h⟩

omit [DecidableEq V] in
theorem later_schedule (hs : Serial s) {kind : Kind V}
    (hops : t.operations = s.operations.insert s.nextOperation
      { kind := kind, previous := s.operationTail }) : Later s t := by
  intro j g hg
  have hlt := hs.domain j g hg
  exact ⟨g, by rw [hops, Dict.get?_insert_of_ne _ _ (by omega), hg], rfl, fun _ => rfl, fun h => h⟩

omit [DecidableEq V] in
theorem later_same (hops : t.operations = s.operations) : Later s t := by
  unfold Later
  rw [hops]
  exact Later.refl s

variable [DecidableEq P]

theorem later_move (hs : Serial s) (hmove : Move s t) : Later s t := by
  cases hmove with
  | requested kind hrequest => exact later_schedule hs rfl
  | scheduled => exact later_schedule hs rfl
  | arrived effect value =>
    unfold playEvent
    simp only
    split
    · exact later_same rfl
    · split
      · exact later_same rfl
      · exact later_schedule hs rfl
  | rejected id op h hphase hrequest
  | begun id op effect h hphase hkind
  | taken id op effect physical h hphase hkind hmapped
  | unmapped id op play h hphase hkind hmapped
  | lookedUp id op play physical h hphase hkind hmapped
  | passed id op h hphase hkind
  | failed id op effect previous h hphase hkind
  | published id op effect previous physical h hphase hkind hreturns
  | acknowledged id op effect previous physical h hphase hkind
  | rolledBack id op effect previous physical erased h hphase hkind
  | played id op play physical h hphase hkind
  | erased id op effect physical h hphase hkind
  | kept id op effect physical h hphase hkind =>
    exact later_phase h (get?_setPhase s id op _) fun hack => by rw [hphase] at hack; cases hack
  | finished id op effect physical h hphase hkind hmapped
  | mismatched id op effect physical h hphase hkind hmapped
  | flushed id op effect physical play plays h hphase hkind =>
    exact later_phase h (get?_setPhase s id op _) fun _ => trivial
  | uploaded id op effect physical h hphase hkind =>
    exact later_phase h (get?_setPhase s id op _) fun _ => rfl
  | forgotten id op htail hget hdone => exact later_same rfl

end Later

end Keymasq.Feedback.Established
