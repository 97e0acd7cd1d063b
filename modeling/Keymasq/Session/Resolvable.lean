import Keymasq.Session.Channel

/-!
# References of accepted payloads stay resolvable

The daemon may run a command long after the payload that named it was
replaced. A reference is therefore given up only when its payload is known not
to have been taken, or when the daemon reports that it no longer uses it.
-/

namespace Keymasq.Session.Resolvable
open Foundation Foundation.Transition References Apply Channel

variable {Content S : Type} {ser : Serializer Content S} {x y : System Content S}

/-- The daemon has accepted the payload, or may still do so. -/
def MayBeAccepted (x : System Content S) (payload : Payload Content) : Prop :=
  payload ∈ x.accepted ∨ ∃ q ∈ x.requests, q.command = .set payload

instance decidableMayBeAccepted [DecidableEq Content] (x : System Content S)
    (payload : Payload Content) : Decidable (MayBeAccepted x payload) :=
  inferInstanceAs (Decidable (_ ∨ _))

/-- An apply that gives up while the connection stays open has no reference in a payload that
the daemon may have accepted. -/
def givesUpNothing [DecidableEq Content] (x : System Content S) : Op Content → Bool
  | .timedOut requestId =>
    (x.applyOf requestId).all fun a =>
      decide (a.payload.target ≠ .combos ∧ x.isCurrent a) || decide (a.payload.refs = []) ||
        !decide (MayBeAccepted x a.payload)
  | _ => true

/- The staged references of the applies that wait for their answers. -/
def snapshots (x : System Content S) : List (Owner × ReferenceSnapshot) :=
  x.applies.map fun a => (a.payload.target, a.staged)

/- The references stand for the commands of the payload, in order. -/
def Numbered (ser : Serializer Content S) (st : ExecRuntimeState) (p : Payload Content) : Prop :=
  p.refs.map st.issued.get? = (ser.commands p.content).map fun cmd => some ⟨cmd, p.target⟩

/-- Every reference that may be in use is held, staged or reported unused. -/
structure Covered (ser : Serializer Content S) (x : System Content S) : Prop where
  ordered : Ordered x
  accounted : Accounted x.execState (snapshots x)
  staged : ∀ a ∈ x.applies, ∀ r ∈ a.payload.refs, (a.staged.bindings.get? r).isSome = true
  numbered : ∀ p, MayBeAccepted x p → Numbered ser x.execState p
  held : ∀ p, MayBeAccepted x p → ∀ r ∈ p.refs,
    r ∈ x.reportedUnused ∨ Held x.execState r ∨ ∃ a ∈ x.applies, a.payload = p
  reported : ∀ response ∈ x.responses, ∀ refs, response.verdict = .unused refs →
    ∀ r ∈ refs, r ∈ x.reportedUnused

theorem covered_start : Covered ser {} := by
  refine ⟨ordered_start, accounted_start, ?_, ?_, ?_, ?_⟩
  · exact fun a ha => absurd ha List.not_mem_nil
  · rintro p (hp | ⟨q, hq, -⟩)
    · exact absurd hp List.not_mem_nil
    · exact absurd hq List.not_mem_nil
  · rintro p (hp | ⟨q, hq, -⟩)
    · exact absurd hp List.not_mem_nil
    · exact absurd hq List.not_mem_nil
  · exact fun r hr => absurd hr List.not_mem_nil

/-! ## Steps that leave the references alone -/

/-- The references stay as they are, no payload is sent and no answer is made up. -/
theorem Covered.keep (h : Covered ser x) (hord : Ordered y)
    (hexec : y.execState = x.execState) (happlies : y.applies = x.applies)
    (hmay : ∀ p, MayBeAccepted y p → MayBeAccepted x p)
    (hunused : x.reportedUnused ⊆ y.reportedUnused)
    (hresponses : ∀ response ∈ y.responses, response ∈ x.responses ∨
      ∀ refs, response.verdict = .unused refs → ∀ r ∈ refs, r ∈ y.reportedUnused) :
    Covered ser y := by
  refine ⟨hord, ?_, ?_, ?_, ?_, ?_⟩
  · unfold snapshots
    rw [hexec, happlies]
    exact h.accounted
  · rw [happlies]
    exact h.staged
  · intro p hp
    rw [hexec]
    exact h.numbered p (hmay p hp)
  · intro p hp r hr
    rw [hexec, happlies]
    rcases h.held p (hmay p hp) r hr with hr | hr
    · exact Or.inl (hunused hr)
    · exact Or.inr hr
  · intro response hmem refs hverdict r hr
    rcases hresponses response hmem with hmem | hnew
    · exact hunused (h.reported response hmem refs hverdict r hr)
    · exact hnew refs hverdict r hr

/-- Other parts of the session state change. -/
theorem Covered.of_eq (h : Covered ser x) (hord : Ordered y)
    (hexec : y.execState = x.execState) (happlies : y.applies = x.applies)
    (hrequests : y.requests = x.requests) (haccepted : y.accepted = x.accepted)
    (hunused : y.reportedUnused = x.reportedUnused)
    (hresponses : y.responses ⊆ x.responses) : Covered ser y := by
  refine h.keep hord hexec happlies (fun p hp => ?_) (hunused ▸ Finset.Subset.refl _)
    fun response hmem => Or.inl (hresponses hmem)
  unfold MayBeAccepted at hp ⊢
  rw [hrequests, haccepted] at hp
  exact hp

theorem mayBeAccepted_send {command : Command Content} {p : Payload Content}
    (h : MayBeAccepted (x.send command) p) : MayBeAccepted x p ∨ command = .set p := by
  rcases h with hp | ⟨q, hq, hcommand⟩
  · exact Or.inl (Or.inl hp)
  · rcases List.mem_append.mp hq with hq | hq
    · exact Or.inl (Or.inr ⟨q, hq, hcommand⟩)
    · rw [List.mem_singleton.mp hq] at hcommand
      exact Or.inr hcommand

theorem Covered.deactivateProfile (h : Covered ser x) (hardwareId : String) :
    Covered ser (x.deactivateProfile hardwareId) := by
  have hord := h.ordered.deactivateProfile hardwareId
  unfold System.deactivateProfile at hord ⊢
  split
  · exact h
  · rename_i hgrabbed
    rw [if_neg hgrabbed] at hord
    refine h.keep hord rfl rfl (fun p hp => ?_) (Finset.Subset.refl _)
      fun response hmem => Or.inl hmem
    rcases mayBeAccepted_send hp with hp | hp
    · exact hp
    · cases hp

theorem Covered.collectRetired (h : Covered ser x) : Covered ser x.collectRetired := by
  have hord := h.ordered.collectRetired
  simp only [System.collectRetired] at hord ⊢
  split
  · exact h
  · rename_i hempty
    rw [if_neg hempty] at hord
    refine h.keep hord rfl rfl (fun p hp => ?_) (Finset.Subset.refl _)
      fun response hmem => Or.inl hmem
    rcases mayBeAccepted_send hp with hp | hp
    · exact hp
    · cases hp

/-! ## Staging a payload -/

/-- References that were issued keep what they were issued for. -/
theorem Numbered.stage {st st' : ExecRuntimeState} {owner : Owner} {cmds : List String}
    {snapshot : ReferenceSnapshot} {refs : List ℕ} {snaps : List (Owner × ReferenceSnapshot)}
    (hst : Accounted st snaps) (hstaged : Staged st st' owner cmds snapshot refs)
    {p : Payload Content} (h : Numbered ser st p) : Numbered ser st' p := by
  unfold Numbered at h ⊢
  rw [← h]
  refine List.map_congr_left fun r hr => hstaged.issued r fun hmem => ?_
  have hsome : st.issued.get? r ∈ p.refs.map st.issued.get? := List.mem_map_of_mem hr
  rw [h] at hsome
  obtain ⟨cmd, -, hget⟩ := List.mem_map.mp hsome
  have hlt := hst.fresh hget.symm
  have hle := (hstaged.range r hmem).1
  omega

theorem Covered.apply (h : Covered ser x) (target : Owner) (content : Content) :
    Covered ser (x.apply ser target content) := by
  have hord : Ordered (x.apply ser target content) := h.ordered.apply target content
  have hspec := stage_spec h.accounted target (ser.commands content)
  generalize hstage : x.execState.stage target (ser.commands content) = stage at hord hspec
  obtain ⟨staged, refs, execState⟩ := stage
  simp only [System.apply, hstage] at hord hspec ⊢
  refine ⟨hord, h.accounted.stage hspec, fun a ha r hr => ?_, fun p hp => ?_,
    fun p hp r hr => ?_, h.reported⟩
  · rcases List.mem_cons.mp ha with rfl | ha
    · obtain ⟨cmd, hcmd⟩ := hspec.issued_owner hr
      have hr : r ∈ refs := hr
      show (staged.bindings.get? r).isSome = true
      rw [hspec.taken, if_pos hr, hcmd]
      rfl
    · exact h.staged a ha r hr
  · rcases mayBeAccepted_send hp with hp | hp
    · exact (h.numbered p hp).stage h.accounted hspec
    · cases hp
      exact hspec.bindings
  · rcases mayBeAccepted_send hp with hp | hp
    · rcases h.held p hp r hr with hr | hr | ⟨a, ha, heq⟩
      · exact Or.inl hr
      · exact Or.inr (Or.inl (held_stage hspec hr))
      · exact Or.inr (Or.inr ⟨a, List.mem_cons_of_mem _ ha, heq⟩)
    · cases hp
      exact Or.inr (Or.inr ⟨_, List.mem_cons_self, rfl⟩)

theorem Covered.applyUnsent (h : Covered ser x) (target : Owner) (content : Content) :
    Covered ser (x.applyUnsent ser target content) := by
  have hspec := stage_spec h.accounted target (ser.commands content)
  generalize hstage : x.execState.stage target (ser.commands content) = stage at hspec
  obtain ⟨staged, refs, execState⟩ := stage
  simp only [System.applyUnsent, hstage] at hspec ⊢
  exact ⟨h.ordered.of_eq rfl rfl rfl rfl rfl rfl rfl, (h.accounted.stage hspec).discard, h.staged,
    fun p hp => (h.numbered p hp).stage h.accounted hspec,
    fun p hp r hr => (h.held p hp r hr).imp_right fun hr => hr.imp_left (held_stage hspec),
    h.reported⟩

theorem Covered.tryApply (h : Covered ser x) (target : Owner) (content : Content)
    (sent : Bool) : Covered ser (x.tryApply ser target content sent) := by
  cases sent with
  | true => exact h.apply target content
  | false => exact h.applyUnsent target content

/-! ## Answers -/

/-- The references change but stay held. -/
theorem Covered.hold (h : Covered ser x) {st : ExecRuntimeState} (hord : Ordered y)
    (hsys : y.execState = st) (haccounted : Accounted st (snapshots x))
    (hissued : st.issued = x.execState.issued)
    (hheld : ∀ r, Held x.execState r → r ∈ x.reportedUnused ∨ Held st r)
    (happlies : y.applies = x.applies) (hrequests : y.requests = x.requests)
    (haccepted : y.accepted = x.accepted)
    (hunused : y.reportedUnused = x.reportedUnused)
    (hresponses : y.responses ⊆ x.responses) : Covered ser y := by
  have hmay : ∀ p, MayBeAccepted y p → MayBeAccepted x p := by
    intro p hp
    unfold MayBeAccepted at hp ⊢
    rw [hrequests, haccepted] at hp
    exact hp
  refine ⟨hord, ?_, ?_, ?_, ?_, ?_⟩
  · unfold snapshots
    rw [hsys, happlies]
    exact haccounted
  · rw [happlies]
    exact h.staged
  · intro p hp
    unfold Numbered
    rw [hsys, hissued]
    exact h.numbered p (hmay p hp)
  · intro p hp r hr
    rw [hsys, happlies, hunused]
    rcases h.held p (hmay p hp) r hr with hr | hr | hr
    · exact Or.inl hr
    · exact (hheld r hr).imp_right Or.inl
    · exact Or.inr (Or.inr hr)
  · intro response hmem refs hverdict r hr
    rw [hunused]
    exact h.reported response (hresponses hmem) refs hverdict r hr

theorem Covered.clear (h : Covered ser x) (hardwareId : String) :
    Covered ser (x.clearHardwareRuntimeState hardwareId) :=
  h.hold (h.ordered.of_eq rfl rfl rfl rfl rfl rfl rfl) rfl (h.accounted.retire _) rfl
    (fun _ hr => Or.inr (h.accounted.held_retire _ hr)) rfl rfl rfl rfl (List.Subset.refl _)

/- The snapshots with the one of the apply in front. -/
theorem snapshots_perm (h : Ordered x) {a : PendingApply Content} (ha : a ∈ x.applies) :
    (snapshots x).Perm ((a.payload.target, a.staged) :: snapshots (x.finish a)) := by
  obtain ⟨newer, older, heq⟩ := List.append_of_mem ha
  have hsorted := h.applies
  rw [heq, List.pairwise_append, List.pairwise_cons] at hsorted
  obtain ⟨-, ⟨holder, -⟩, hnewer⟩ := hsorted
  have hfinish : (x.finish a).applies = newer ++ older := by
    show x.applies.filter _ = _
    rw [heq, List.filter_append, List.filter_cons_of_neg (by simp)]
    congr 1
    · refine List.filter_eq_self.mpr fun b hb => decide_eq_true ?_
      have hgt := hnewer b hb a List.mem_cons_self
      omega
    · refine List.filter_eq_self.mpr fun b hb => decide_eq_true ?_
      have hgt := holder b hb
      omega
  unfold snapshots
  rw [hfinish, heq]
  exact List.perm_middle.map _

/-- The apply ends. What its payload still needs is held, unless it was not accepted. -/
theorem Covered.finish (h : Covered ser x) {a : PendingApply Content} (ha : a ∈ x.applies)
    {st : ExecRuntimeState} (hissued : st.issued = x.execState.issued)
    (haccounted : Accounted st (snapshots (x.finish a)))
    (hheld : ∀ r, Held x.execState r → Held st r)
    (hown : ¬MayBeAccepted x a.payload ∨ a.payload.refs = [] ∨
      ∀ r b, a.staged.bindings.get? r = some b → Held st r) :
    Covered ser ({ x with execState := st }.finish a) := by
  have hord : Ordered ({ x with execState := st }.finish a) :=
    (sameChannel_finish { x with execState := st } a).ordered
      (h.ordered.of_eq rfl rfl rfl rfl rfl rfl rfl) h.ordered.acknowledged
  refine ⟨hord, haccounted, fun b hb => h.staged b (List.mem_filter.mp hb).1, fun p hp => ?_,
    fun p hp r hr => ?_, h.reported⟩
  · have hnumbered := h.numbered p hp
    unfold Numbered at hnumbered ⊢
    rw [← hissued] at hnumbered
    exact hnumbered
  · have hp : MayBeAccepted x p := hp
    rcases h.held p hp r hr with hr | hr | ⟨b, hb, heq⟩
    · exact Or.inl hr
    · exact Or.inr (Or.inl (hheld r hr))
    · by_cases hid : b.payload.requestId = a.payload.requestId
      · have hsame := h.ordered.unique hb ha hid
        rw [hsame] at heq
        rw [← heq] at hp hr
        rcases hown with hnot | hnil | hall
        · exact absurd hp hnot
        · rw [hnil] at hr
          cases hr
        · obtain ⟨binding, hget⟩ := Option.isSome_iff_exists.mp (h.staged a ha r hr)
          exact Or.inr (Or.inl (hall r binding hget))
      · exact Or.inr (Or.inr ⟨b, List.mem_filter.mpr ⟨hb, decide_eq_true hid⟩, heq⟩)

theorem Covered.discard (h : Covered ser x) {a : PendingApply Content} (ha : a ∈ x.applies)
    (hown : ¬MayBeAccepted x a.payload ∨ a.payload.refs = []) :
    Covered ser ((x.discardStaged a).finish a) :=
  h.finish ha rfl (h.accounted.perm (snapshots_perm h.ordered ha)).discard (fun _ hr => hr)
    (hown.imp_right Or.inl)

theorem commit_issued (st : ExecRuntimeState) (owner : Owner) (staged : ReferenceSnapshot)
    (current : Bool) : (st.commit owner staged current).issued = st.issued := by
  cases current <;> rfl

theorem Covered.commitReferences (h : Covered ser x) {a : PendingApply Content}
    (ha : a ∈ x.applies) : Covered ser ((x.commitReferences a).finish a) := by
  obtain ⟨haccounted, hheld, hnew⟩ :=
    (h.accounted.perm (snapshots_perm h.ordered ha)).commit (x.isCurrent a)
  exact h.finish ha (commit_issued _ _ _ _) haccounted hheld (Or.inr (Or.inr hnew))

theorem Covered.settle (h : Covered ser x) {a : PendingApply Content} {verdict : Verdict}
    (ha : a ∈ x.applies) (hhandled : Handled x a.payload.requestId)
    (hverdict : Truthful x a.payload verdict) : Covered ser (x.settle ser a verdict) := by
  have hunsent : ¬∃ q ∈ x.requests, q.command = .set a.payload := by
    rintro ⟨q, hq, hcommand⟩
    have hid := h.ordered.payload q hq a.payload hcommand
    have hlt := hhandled.2 q hq
    omega
  cases verdict with
  | error => exact h.discard ha (Or.inl fun hmay => hmay.elim hverdict hunsent)
  | waiting =>
    cases htarget : a.payload.target with
    | combos => exact absurd htarget hverdict.1
    | device hardwareId =>
      simp only [System.settle, htarget, System.deferMappingUntilRegrab]
      split
      · exact h.discard ha (Or.inl fun hmay => hmay.elim hverdict.2 hunsent)
      · exact (h.clear hardwareId).discard ha (Or.inl fun hmay => hmay.elim hverdict.2 hunsent)
  | ok =>
    have hcommit := h.commitReferences ha
    have hord : Ordered ((x.commit ser a).finish a) := h.ordered.settle .ok hhandled
    show Covered ser ((x.commit ser a).finish a)
    unfold System.commit at hord ⊢
    split
    · rename_i hcurrent
      rw [if_pos hcurrent] at hord
      refine hcommit.of_eq hord ?_ ?_ ?_ ?_ ?_ ?_ <;> unfold System.storeSignature <;>
        cases a.payload.target <;> first | rfl | exact List.Subset.refl _
    · exact hcommit
  | unused refs => exact hverdict.elim

theorem Covered.answered (h : Covered ser x) {response : Response}
    (hstep : x.answered ser response = some y) : Covered ser y := by
  unfold System.answered at hstep
  split at hstep
  · rename_i hr
    have herase : x.responses.erase response ⊆ x.responses :=
      fun r hr => List.mem_of_mem_erase hr
    have htaken : Covered ser { x with responses := x.responses.erase response } :=
      h.of_eq (SameChannel.ordered (x := x) ⟨rfl, rfl, herase, rfl, rfl, List.Sublist.refl _⟩
        h.ordered h.ordered.acknowledged) rfl rfl rfl rfl rfl herase
    simp only [Option.some.injEq] at hstep
    rw [← hstep]
    split
    · rename_i a ha
      obtain ⟨hmem, hid⟩ := applyOf_eq_some ha
      refine htaken.settle hmem ?_ (h.ordered.verdict response hr a hmem hid)
      rw [hid]
      exact h.ordered.responses response hr
    · split
      · rename_i r _
        have hdrop : Covered ser { x with
            responses := x.responses.erase response
            release := none } :=
          htaken.of_eq (htaken.ordered.of_eq rfl rfl rfl rfl rfl rfl rfl) rfl rfl rfl rfl rfl
            (List.Subset.refl _)
        simp only [System.settleRelease]
        split
        · exact hdrop
        · exact hdrop.clear r.hardwareId
      · split
        · rename_i collection _
          have hord : Ordered ({ x with
              responses := x.responses.erase response
              }.settleCollection collection response.verdict) :=
            (sameChannel_settleCollection _ collection response.verdict).ordered htaken.ordered
              (by cases response.verdict <;> exact htaken.ordered.acknowledged)
          cases hverdict : response.verdict with
          | unused refs =>
            rw [hverdict] at hord
            obtain ⟨haccounted, hheld⟩ := h.accounted.collected collection.snapshot refs
            refine h.hold hord rfl haccounted rfl (fun r hr' => ?_) rfl rfl rfl rfl herase
            by_cases hmem : r ∈ refs
            · exact Or.inl (h.reported response hr refs hverdict r hmem)
            · exact Or.inr (hheld r hr' hmem)
          | ok | waiting | error =>
            rw [hverdict] at hord
            exact h.of_eq hord rfl rfl rfl rfl rfl herase
        · exact htaken
  · cases hstep

theorem Covered.disconnect (h : Covered ser x) : Covered ser x.disconnect := by
  refine ⟨h.ordered.disconnect, ⟨nofun, nofun, h.accounted.fresh, nofun, nofun, nofun,
    List.Pairwise.nil⟩, ?_, ?_, ?_, ?_⟩
  · exact fun a ha => absurd ha List.not_mem_nil
  · rintro p (hp | ⟨q, hq, -⟩)
    · exact absurd hp List.not_mem_nil
    · exact absurd hq List.not_mem_nil
  · rintro p (hp | ⟨q, hq, -⟩)
    · exact absurd hp List.not_mem_nil
    · exact absurd hq List.not_mem_nil
  · exact fun r hr => absurd hr List.not_mem_nil

theorem Covered.timedOut [DecidableEq Content] (h : Covered ser x) {requestId : ℕ}
    (hguard : givesUpNothing x (.timedOut requestId) = true)
    (hstep : x.timedOut requestId = some y) : Covered ser y := by
  unfold System.timedOut at hstep
  unfold givesUpNothing at hguard
  split at hstep
  · rename_i a ha
    cases hstep
    simp only [ha, Option.all_some, Bool.or_eq_true, decide_eq_true_eq, Bool.not_eq_true',
      decide_eq_false_iff_not] at hguard
    unfold System.applyTimeout
    split
    · exact h.disconnect
    · rename_i hkeep
      refine h.discard (applyOf_eq_some ha).1 ?_
      rcases hguard with (hcloses | hnil) | hnot
      · exact absurd hcloses hkeep
      · exact Or.inr hnil
      · exact Or.inl hnot
  · split at hstep
    · cases hstep
      exact h.of_eq (h.ordered.of_eq rfl rfl rfl rfl rfl rfl rfl) rfl rfl rfl rfl rfl
        (List.Subset.refl _)
    · obtain ⟨collection, -, heq⟩ := Option.map_eq_some_iff.mp hstep
      rw [← heq]
      exact h.of_eq (h.ordered.of_eq rfl rfl rfl rfl rfl rfl rfl) rfl rfl rfl rfl rfl
        (List.Subset.refl _)

/-! ## The daemon -/

theorem Covered.perform (h : Covered ser x) {outcome : Outcome} {answers : Bool}
    (hstep : x.handleCommand outcome answers = some y) : Covered ser y := by
  have hord := h.ordered.perform hstep
  unfold System.handleCommand at hstep
  split at hstep
  · cases hstep
  · rename_i q rest hq
    have hmem : q ∈ x.requests := hq ▸ List.mem_cons_self
    -- What was under way is under way, or was taken by the daemon just now.
    have hmay : ∀ p, (p ∈ x.accepted ∨ ∃ q' ∈ rest, q'.command = .set p) →
        MayBeAccepted x p := by
      rintro p (hp | ⟨q', hq', hcommand⟩)
      · exact Or.inl hp
      · exact Or.inr ⟨q', hq ▸ List.mem_cons_of_mem q hq', hcommand⟩
    have hother : ∀ {r : Response} {verdict : Verdict} {unused : Finset ℕ}, r ∈ x.responses ∨
        r = ⟨q.requestId, verdict⟩ → (∀ refs, verdict ≠ .unused refs) → r ∈ x.responses ∨
          ∀ refs, r.verdict = .unused refs → ∀ ref ∈ refs, ref ∈ unused := by
      rintro r verdict unused (hr | rfl) hne
      · exact Or.inl hr
      · exact Or.inr fun refs hrefs => absurd hrefs (hne refs)
    unfold System.perform at hstep
    split at hstep
    · rename_i payload hcommand
      cases hstep
      refine h.keep hord rfl rfl (fun p hp => ?_) (Finset.Subset.refl _)
        fun r hr => hother (mem_answer hr) nofun
      rcases hp with hp | hp
      · rcases List.mem_cons.mp hp with rfl | hp
        · exact Or.inr ⟨q, hmem, hcommand⟩
        · exact hmay p (Or.inl hp)
      · exact hmay p (Or.inr hp)
    · split at hstep
      · cases hstep
      · cases hstep
        exact h.keep hord rfl rfl hmay (Finset.Subset.refl _)
          fun r hr => hother (mem_answer hr) nofun
    · rename_i payload done hcommand
      cases hstep
      cases done <;> exact h.keep hord rfl rfl hmay (Finset.Subset.refl _)
        fun r hr => hother (mem_answer hr) nofun
    · cases hstep
      exact h.keep hord rfl rfl hmay (Finset.Subset.refl _)
        fun r hr => hother (mem_answer hr) nofun
    · rename_i hardwareId done hcommand
      cases hstep
      cases done <;> exact h.keep hord rfl rfl hmay (Finset.Subset.refl _)
        fun r hr => hother (mem_answer hr) nofun
    · rename_i refs reported hcommand
      cases hstep
      refine h.keep hord rfl rfl hmay Finset.subset_union_left fun r hr => ?_
      rcases mem_answer hr with hr | rfl
      · exact Or.inl hr
      · refine Or.inr fun refs' hrefs ref href => ?_
        cases hrefs
        exact Finset.mem_union_right _ (List.mem_toFinset.mpr href)
    · cases hstep
      exact h.keep hord rfl rfl hmay (Finset.Subset.refl _)
        fun r hr => hother (mem_answer hr) nofun
    · cases hstep

theorem Covered.step [DecidableEq Content] [DecidableEq S] {op : Op Content}
    (h : Covered ser x) (hguard : givesUpNothing x op = true)
    (hstep : Apply.step ser x op = some y) : Covered ser y := by
  have hord := h.ordered.step hstep
  cases op with
  | begin
  | invalidate target =>
    cases hstep
    exact h.of_eq hord rfl rfl rfl rfl rfl (List.Subset.refl _)
  | updateCombos content sent
  | updateMapping hardwareId content sent
  | setMapping hardwareId content sent =>
    obtain rfl | ⟨-, target, rfl⟩ := step_update (by constructor) hstep
    · exact h
    · exact h.tryApply target content sent
  | grabDevice hardwareId grabbed =>
    obtain ⟨-, rfl⟩ := enabled_eq_some.mp hstep
    cases grabbed <;> exact h.of_eq hord rfl rfl rfl rfl rfl (List.Subset.refl _)
  | deactivateProfile hardwareId =>
    obtain ⟨-, rfl⟩ := enabled_eq_some.mp hstep
    exact h.deactivateProfile hardwareId
  | answered response => exact h.answered hstep
  | timedOut requestId => exact h.timedOut hguard hstep
  | disconnected =>
    cases hstep
    exact h.disconnect
  | collectRetired =>
    obtain ⟨-, rfl⟩ := enabled_eq_some.mp hstep
    exact h.collectRetired
  | command outcome answers => exact h.perform hstep

/-- A held or staged reference is looked up to the command at its place in the payload. -/
theorem Covered.resolve (h : Covered ser x) {p : Payload Content} (hp : MayBeAccepted x p)
    {r : ℕ} {cmd : String} (hmem : (r, cmd) ∈ p.refs.zip (ser.commands p.content))
    (hused : r ∉ x.reportedUnused) : x.execState.resolve r = some ⟨cmd, p.target⟩ := by
  have hr : r ∈ p.refs := (List.of_mem_zip hmem).1
  have hissued : x.execState.issued.get? r = some ⟨cmd, p.target⟩ := by
    obtain ⟨i, hi⟩ := List.mem_iff_getElem?.mp hmem
    rw [List.getElem?_zip_eq_some] at hi
    have hat := congrArg (·[i]?) (h.numbered p hp)
    simp only [List.getElem?_map, hi.1, hi.2, Option.map_some, Option.some.injEq] at hat
    exact hat
  have hfound : x.execState.resolve r ≠ none := by
    rcases h.held p hp r hr with hunused | hheld | ⟨a, ha, rfl⟩
    · exact absurd hunused hused
    · exact h.accounted.resolve_held hheld
    · obtain ⟨b, hb⟩ := Option.isSome_iff_exists.mp (h.staged a ha r hr)
      have hcurrent := (h.accounted.staged _ (List.mem_map_of_mem ha) hb).1
      rw [resolve_of_current hcurrent]
      exact Option.some_ne_none b
  obtain ⟨b, hb⟩ := Option.ne_none_iff_exists'.mp hfound
  rw [hb, ← hissued]
  exact (h.accounted.resolve_issued hb).symm

/-- As long as no apply gives up references the daemon may have accepted, every reference is
found until it is reported unused, and only ever for the command it was issued for. -/
theorem accepted_refs_resolve [DecidableEq Content] [DecidableEq S] {ops : List (Op Content)}
    (hguard : Guarded (Apply.step ser) (fun x op => givesUpNothing x op = true) {} ops)
    (hrun : run (Apply.step ser) {} ops = some x) :
    (∀ p, MayBeAccepted x p → p.refs.length = (ser.commands p.content).length ∧
      ∀ r cmd, (r, cmd) ∈ p.refs.zip (ser.commands p.content) → r ∉ x.reportedUnused →
        x.execState.resolve r = some ⟨cmd, p.target⟩) ∧
      ∀ r b, x.execState.resolve r = some b → x.execState.issued.get? r = some b := by
  have h : Covered ser x :=
    guarded_run_invariant (I := Covered ser) (fun _ _ _ h hg hs => h.step hg hs)
      covered_start hguard hrun
  refine ⟨fun p hp => ⟨?_, fun r cmd hmem hused => h.resolve hp hmem hused⟩,
    fun r b hr => h.accounted.resolve_issued hr⟩
  have hlength := congrArg List.length (h.numbered p hp)
  rwa [List.length_map, List.length_map] at hlength

/- Combos given by the commands they execute, which are also their signature. -/
def execLists : Serializer (List String) (List String) := ⟨id, id⟩

/- The second update is superseded and its answer is lost; the payload it replaces is retired
when the third one is acknowledged. -/
def replaced : List (Op (List String)) :=
  [.updateCombos ["a"] true, .command .ok true, .answered ⟨1, .ok⟩, .begin,
    .updateCombos ["b", "c"] true, .begin, .command .ok true, .answered ⟨2, .ok⟩,
    .updateCombos ["d"] true, .command .ok true, .answered ⟨3, .ok⟩, .collectRetired,
    .command (.unused [1]) true, .answered ⟨4, .unused [1]⟩]

theorem accepted_refs_resolve_replaced :
    (∃ x, run (step execLists) {} replaced = some x ∧ x.accepted.length = 3 ∧
      x.execState.resolve 1 = none ∧ x.execState.resolve 3 = some ⟨"c", .combos⟩) ∧
    ∀ x, run (step execLists) {} replaced = some x →
      (∀ p, MayBeAccepted x p → p.refs.length = (execLists.commands p.content).length ∧
        ∀ r cmd, (r, cmd) ∈ p.refs.zip (execLists.commands p.content) → r ∉ x.reportedUnused →
          x.execState.resolve r = some ⟨cmd, p.target⟩) ∧
      ∀ r b, x.execState.resolve r = some b → x.execState.issued.get? r = some b := by
  have hguard : Guarded (step execLists) (fun x op => givesUpNothing x op = true)
      {} replaced := by decide
  have hsome : (run (step execLists) {} replaced).any (fun x => decide
      (x.accepted.length = 3 ∧ x.execState.resolve 1 = none ∧
        x.execState.resolve 3 = some ⟨"c", .combos⟩)) = true := by decide
  rw [Option.any_eq_true] at hsome
  obtain ⟨x, hrun, hsys⟩ := hsome
  rw [decide_eq_true_eq] at hsys
  exact ⟨⟨x, hrun, hsys⟩, fun x hrun => accepted_refs_resolve hguard hrun⟩

/- The daemon takes the combos, but its answer does not come in time. -/
def lateAnswer : List (Op (List String)) :=
  [.updateCombos ["a"] true, .command .ok false, .timedOut 1]

/-- The combos run in the daemon while the session has dropped what their reference means. -/
theorem accepted_refs_dropped :
    ¬∀ (ops : List (Op (List String))) (x : System (List String) (List String)),
      run (step execLists) {} ops = some x →
      ∀ p, MayBeAccepted x p →
        ∀ r cmd, (r, cmd) ∈ p.refs.zip (execLists.commands p.content) →
          r ∉ x.reportedUnused → x.execState.resolve r = some ⟨cmd, p.target⟩ := by
  intro h
  have hlost : (run (step execLists) {} lateAnswer).any (fun x => decide
      (⟨1, .combos, ["a"], [1]⟩ ∈ x.accepted ∧ 1 ∉ x.reportedUnused ∧
        x.execState.resolve 1 = none)) = true := by decide
  rw [Option.any_eq_true] at hlost
  obtain ⟨x, hrun, hsys⟩ := hlost
  rw [decide_eq_true_eq] at hsys
  obtain ⟨haccepted, hused, hnone⟩ := hsys
  have hfound := h lateAnswer x hrun _ (Or.inl haccepted) 1 "a" (by decide) hused
  rw [hnone] at hfound
  cases hfound

end Keymasq.Session.Resolvable
