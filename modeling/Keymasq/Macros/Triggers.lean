import Keymasq.Macros.Playback

/-!
# Hold macros and their trigger

An instance carries the trigger of its root. Once a release is handled the roots
of the trigger are released and its hold instances paused, cancelled or on their
last iteration, and nothing but a press of the trigger undoes that.
-/

namespace Keymasq.Macros.Triggers
open Foundation Foundation.Transition Keymasq.Macros.Playback

/-! ## Trees of instances -/

/-- Children carry the trigger of their parent and root, and only roots have a source lifecycle. A
live instance has metadata until it is cancelled. -/
structure Trees (m : MacroRuntimeState) : Prop where
  issued : ∀ i info, m.instanceMeta.get? i = some info →
    i ≤ m.instanceSeq ∧ info.rootInstanceId ≤ m.instanceSeq ∧
      ∀ p, info.parentInstanceId = some p → p ≤ m.instanceSeq
  children : ∀ p i, i ∈ m.instanceChildren.getD p ∅ →
    ∃ info, m.instanceMeta.get? i = some info ∧ info.parentInstanceId = some p
  parent : ∀ i info p above, m.instanceMeta.get? i = some info → info.parentInstanceId = some p →
    m.instanceMeta.get? p = some above → above.source = info.source
  root : ∀ i info above, m.instanceMeta.get? i = some info →
    m.instanceMeta.get? info.rootInstanceId = some above → above.source = info.source
  available : ∀ i info, m.instanceMeta.get? i = some info → info.sourceLifecycleAvailable = true →
    info.parentInstanceId = none ∧ isSource info.source = true
  hold : ∀ i info, m.instanceMeta.get? i = some info → info.loopMode = .hold →
    isSource info.source = true ∧
      (info.loopStopBehavior = .pauseRun → m.pauses.get? i ≠ none)
  known : ∀ i, i ∈ m.alive → i ≤ m.instanceSeq ∧
    (m.instanceMeta.get? i = none → i ∈ m.dying) ∧ (i ∈ m.cancelInstanceIds → i ∈ m.dying)

/-- What metadata keeps for as long as it is there. -/
structure SameKind (info info' : InstanceMeta) : Prop where
  loopMode : info'.loopMode = info.loopMode
  source : info'.source = info.source
  loopStopBehavior : info'.loopStopBehavior = info.loopStopBehavior
  parentInstanceId : info'.parentInstanceId = info.parentInstanceId
  rootInstanceId : info'.rootInstanceId = info.rootInstanceId
  available : info'.sourceLifecycleAvailable = info.sourceLifecycleAvailable

theorem SameKind.refl (info : InstanceMeta) : SameKind info info := ⟨rfl, rfl, rfl, rfl, rfl, rfl⟩

theorem SameKind.trans {a b c : InstanceMeta} (h : SameKind a b) (h' : SameKind b c) :
    SameKind a c :=
  ⟨h'.1.trans h.1, h'.2.trans h.2, h'.3.trans h.3, h'.4.trans h.4, h'.5.trans h.5, h'.6.trans h.6⟩

/-- A step that starts nothing: instances may end, be cancelled or forgotten, and no live instance
is forgotten before it is cancelled. What is released, paused or stopped stays so for the triggers
of `P`. -/
structure Later (P : Key → Prop) (m m' : MacroRuntimeState) : Prop where
  instanceSeq : m'.instanceSeq = m.instanceSeq
  instanceMeta : ∀ i info', m'.instanceMeta.get? i = some info' →
    ∃ info, m.instanceMeta.get? i = some info ∧ SameKind info info'
  children : ∀ p i, i ∈ m'.instanceChildren.getD p ∅ →
    i ∈ m.instanceChildren.getD p ∅ ∧
      (m.instanceMeta.get? i ≠ none → m'.instanceMeta.get? i ≠ none)
  pauses : ∀ i, m'.instanceMeta.get? i ≠ none →
    (m'.pauses.get? i = none ↔ m.pauses.get? i = none)
  alive : ∀ i, i ∈ m'.alive → i ∈ m.alive
  dying : ∀ i, i ∈ m.dying → i ∈ m'.dying
  gone : ∀ i, i ∈ m'.alive → m'.instanceMeta.get? i = none →
    i ∈ m'.dying ∨ m.instanceMeta.get? i = none
  cancelled : ∀ i, i ∈ m'.alive → i ∈ m'.cancelInstanceIds →
    i ∈ m'.dying ∨ i ∈ m.cancelInstanceIds
  calm : ∀ i info info', m.instanceMeta.get? i = some info → m'.instanceMeta.get? i = some info' →
    P info.source →
      (info.sourceLifecycleActive = false → info'.sourceLifecycleActive = false) ∧
      (info.loopActive = false → info'.loopActive = false) ∧
      (m.pauses.get? i = some true → m'.pauses.get? i = some true)

section Steps

variable {P : Key → Prop} {m m' m'' : MacroRuntimeState} {i : ℕ}

theorem Later.refl (m : MacroRuntimeState) : Later P m m where
  instanceSeq := rfl
  instanceMeta := fun _ info h => ⟨info, h, SameKind.refl info⟩
  children := fun _ _ h => ⟨h, fun hm => hm⟩
  pauses := fun _ _ => Iff.rfl
  alive := fun _ h => h
  dying := fun _ h => h
  gone := fun _ _ h => Or.inr h
  cancelled := fun _ _ h => Or.inr h
  calm := by
    intro i info info' hinfo hinfo' _
    rw [hinfo] at hinfo'
    cases hinfo'
    exact ⟨fun h => h, fun h => h, fun h => h⟩

theorem Later.known (h : Later P m m') (hi : m'.instanceMeta.get? i ≠ none) :
    m.instanceMeta.get? i ≠ none := by
  obtain ⟨info', hinfo'⟩ := Option.ne_none_iff_exists'.mp hi
  obtain ⟨info, hinfo, -⟩ := h.instanceMeta i info' hinfo'
  rw [hinfo]
  simp

theorem Later.trans (h : Later P m m') (h' : Later P m' m'') : Later P m m'' where
  instanceSeq := h'.instanceSeq.trans h.instanceSeq
  instanceMeta := by
    intro i info'' hinfo''
    obtain ⟨info', hinfo', hkind'⟩ := h'.instanceMeta i info'' hinfo''
    obtain ⟨info, hinfo, hkind⟩ := h.instanceMeta i info' hinfo'
    exact ⟨info, hinfo, hkind.trans hkind'⟩
  children := by
    intro p i hi
    obtain ⟨hi', hkeep'⟩ := h'.children p i hi
    obtain ⟨hi'', hkeep⟩ := h.children p i hi'
    exact ⟨hi'', fun hm => hkeep' (hkeep hm)⟩
  pauses := fun i hi => (h'.pauses i hi).trans (h.pauses i (h'.known hi))
  alive := fun i hi => h.alive i (h'.alive i hi)
  dying := fun i hi => h'.dying i (h.dying i hi)
  gone := by
    intro i hi hnone
    rcases h'.gone i hi hnone with hdying | hnone'
    · exact Or.inl hdying
    · exact (h.gone i (h'.alive i hi) hnone').imp_left (h'.dying i)
  cancelled := by
    intro i hi hc
    rcases h'.cancelled i hi hc with hdying | hc'
    · exact Or.inl hdying
    · exact (h.cancelled i (h'.alive i hi) hc').imp_left (h'.dying i)
  calm := by
    intro i info info'' hinfo hinfo'' hP
    obtain ⟨info', hinfo', -⟩ := h'.instanceMeta i info'' hinfo''
    obtain ⟨info₀, hinfo₀, hkind⟩ := h.instanceMeta i info' hinfo'
    rw [hinfo] at hinfo₀
    cases hinfo₀
    obtain ⟨hactive, hloop, hpaused⟩ := h.calm i info info' hinfo hinfo' hP
    obtain ⟨hactive', hloop', hpaused'⟩ :=
      h'.calm i info' info'' hinfo' hinfo'' (hkind.source ▸ hP)
    exact ⟨fun hf => hactive' (hactive hf), fun hf => hloop' (hloop hf),
      fun hp => hpaused' (hpaused hp)⟩

/-- A loop whose steps start nothing, with what the steps need. -/
theorem Later.foldl {α : Type} {f : MacroRuntimeState → α → MacroRuntimeState} {as : List α}
    {I : MacroRuntimeState → Prop} (hI : ∀ m m', I m → Later P m m' → I m')
    (hf : ∀ m, I m → ∀ a ∈ as, Later P m (f m a)) (hm : I m) : Later P m (as.foldl f m) := by
  induction as generalizing m with
  | nil => exact Later.refl m
  | cons a as ih =>
    have hfirst := hf m hm a List.mem_cons_self
    exact hfirst.trans (ih (fun m hm b hb => hf m hm b (List.mem_cons_of_mem a hb))
      (hI m (f m a) hm hfirst))

theorem Trees.later (h : Trees m) (hlater : Later P m m') : Trees m' where
  issued := by
    intro i info' hinfo'
    obtain ⟨info, hinfo, hkind⟩ := hlater.instanceMeta i info' hinfo'
    rw [hlater.instanceSeq, hkind.rootInstanceId, hkind.parentInstanceId]
    exact h.issued i info hinfo
  children := by
    intro p i hi
    obtain ⟨hold, hkeep⟩ := hlater.children p i hi
    obtain ⟨info, hinfo, hparent⟩ := h.children p i hold
    obtain ⟨info', hinfo'⟩ := Option.ne_none_iff_exists'.mp (hkeep (by rw [hinfo]; simp))
    obtain ⟨info₀, hinfo₀, hkind⟩ := hlater.instanceMeta i info' hinfo'
    rw [hinfo] at hinfo₀
    cases hinfo₀
    exact ⟨info', hinfo', hkind.parentInstanceId.trans hparent⟩
  parent := by
    intro i info' p above' hinfo' hparent habove'
    obtain ⟨info, hinfo, hkind⟩ := hlater.instanceMeta i info' hinfo'
    obtain ⟨above, habove, hkind'⟩ := hlater.instanceMeta p above' habove'
    rw [hkind.source, hkind'.source]
    exact h.parent i info p above hinfo (hkind.parentInstanceId.symm.trans hparent) habove
  root := by
    intro i info' above' hinfo' habove'
    obtain ⟨info, hinfo, hkind⟩ := hlater.instanceMeta i info' hinfo'
    obtain ⟨above, habove, hkind'⟩ := hlater.instanceMeta _ above' habove'
    rw [hkind.source, hkind'.source]
    rw [hkind.rootInstanceId] at habove
    exact h.root i info above hinfo habove
  available := by
    intro i info' hinfo' havailable
    obtain ⟨info, hinfo, hkind⟩ := hlater.instanceMeta i info' hinfo'
    rw [hkind.parentInstanceId, hkind.source]
    exact h.available i info hinfo (hkind.available.symm.trans havailable)
  hold := by
    intro i info' hinfo' hmode
    obtain ⟨info, hinfo, hkind⟩ := hlater.instanceMeta i info' hinfo'
    obtain ⟨hsource, hpause⟩ := h.hold i info hinfo (hkind.loopMode.symm.trans hmode)
    rw [hkind.source, hkind.loopStopBehavior]
    refine ⟨hsource, fun hstop hnone => hpause hstop ?_⟩
    exact (hlater.pauses i (by rw [hinfo']; simp)).mp hnone
  known := by
    intro i hi
    obtain ⟨hle, hgone, hcancel⟩ := h.known i (hlater.alive i hi)
    refine ⟨hlater.instanceSeq ▸ hle, fun hnone => ?_, fun hc => ?_⟩
    · rcases hlater.gone i hi hnone with hdying | hnone'
      · exact hdying
      · exact hlater.dying i (hgone hnone')
    · rcases hlater.cancelled i hi hc with hdying | hc'
      · exact hdying
      · exact hlater.dying i (hcancel hc')

/-- A step that changes nothing but flags of the metadata and pauses. -/
theorem later_flags (f : ℕ → InstanceMeta → InstanceMeta)
    (hmeta : ∀ i, m'.instanceMeta.get? i = (m.instanceMeta.get? i).map (f i))
    (hkind : ∀ i info, m.instanceMeta.get? i = some info → SameKind info (f i info))
    (hrest : m' = { m with instanceMeta := m'.instanceMeta, pauses := m'.pauses })
    (hpauses : ∀ i, m'.pauses.get? i = none ↔ m.pauses.get? i = none)
    (hcalm : ∀ i info, m.instanceMeta.get? i = some info → P info.source →
      (info.sourceLifecycleActive = false → (f i info).sourceLifecycleActive = false) ∧
      (info.loopActive = false → (f i info).loopActive = false) ∧
      (m.pauses.get? i = some true → m'.pauses.get? i = some true)) : Later P m m' := by
  have hget : ∀ i info', m'.instanceMeta.get? i = some info' →
      ∃ info, m.instanceMeta.get? i = some info ∧ f i info = info' := by
    intro i info' hinfo'
    rw [hmeta] at hinfo'
    exact Option.map_eq_some_iff.mp hinfo'
  have hnone : ∀ i, m'.instanceMeta.get? i = none ↔ m.instanceMeta.get? i = none := by
    intro i
    rw [hmeta, Option.map_eq_none_iff]
  refine ⟨by rw [hrest], fun i info' hinfo' => ?_, fun p i hi => ?_, fun i _ => hpauses i,
    fun i hi => ?_, fun i hi => ?_, fun i _ hi => Or.inr ((hnone i).mp hi), fun i _ hi => ?_,
    fun i info info' hinfo hinfo' hP => ?_⟩
  · obtain ⟨info, hinfo, rfl⟩ := hget i info' hinfo'
    exact ⟨info, hinfo, hkind i info hinfo⟩
  · rw [hrest] at hi
    exact ⟨hi, fun hm hn => hm ((hnone i).mp hn)⟩
  · rw [hrest] at hi
    exact hi
  · rw [hrest]
    exact hi
  · rw [hrest] at hi
    exact Or.inr hi
  · obtain ⟨info₀, hinfo₀, rfl⟩ := hget i info' hinfo'
    rw [hinfo] at hinfo₀
    cases hinfo₀
    exact hcalm i info hinfo hP

theorem later_markSourceReleased (m : MacroRuntimeState) (source : Key) :
    Later P m (markSourceReleased m source) := by
  refine later_flags (fun _ info => if info.parentInstanceId = none ∧ info.source = source then
    { info with sourceLifecycleActive := false } else info) (Dict.get?_mapVal _ _)
    (fun i info _ => ?_) rfl (fun _ => Iff.rfl) (fun i info _ _ => ?_)
  · split
    · exact ⟨rfl, rfl, rfl, rfl, rfl, rfl⟩
    · exact SameKind.refl info
  · split
    · exact ⟨fun _ => rfl, fun h => h, fun h => h⟩
    · exact ⟨fun h => h, fun h => h, fun h => h⟩

theorem later_markLoopStopping (m : MacroRuntimeState) (ids : List ℕ) :
    Later P m (markLoopStopping m ids) := by
  refine later_flags (fun i info => if i ∈ ids then { info with loopActive := false } else info)
    (Dict.get?_mapVal _ _) (fun i info _ => ?_) rfl (fun _ => Iff.rfl) (fun i info _ _ => ?_)
  · split
    · exact ⟨rfl, rfl, rfl, rfl, rfl, rfl⟩
    · exact SameKind.refl info
  · split
    · exact ⟨fun h => h, fun _ => rfl, fun h => h⟩
    · exact ⟨fun h => h, fun h => h, fun h => h⟩

theorem later_pauseInstance (m : MacroRuntimeState) (i : ℕ) : Later P m (pauseInstance m i) := by
  unfold pauseInstance
  split
  · rename_i hrunning
    refine later_flags (fun _ info => info) (fun _ => Option.map_id'.symm)
      (fun _ info _ => SameKind.refl info) rfl (fun j => ?_) (fun j info _ _ => ⟨fun h => h, fun h => h, fun h => ?_⟩)
    · rw [Dict.get?_insert]
      split
      · rename_i hj
        rw [hj, hrunning]
        simp
      · exact Iff.rfl
    · rw [Dict.get?_insert]
      split
      · rfl
      · exact h
  · exact Later.refl m

theorem later_markCancelled (m : MacroRuntimeState) (ids : Finset ℕ) :
    Later P m (markCancelled m ids) :=
  { Later.refl m with
    dying := fun _ h => Finset.mem_union_left _ h
    gone := fun _ _ h => Or.inr h
    cancelled := fun _ _ h => (Finset.mem_union.mp h).symm.imp_left (Finset.mem_union_right _) }

theorem later_endTask (m : MacroRuntimeState) (i : ℕ) : Later P m (endTask m i) :=
  { Later.refl m with
    alive := fun _ h => Finset.mem_of_mem_erase h
    gone := fun _ _ h => Or.inr h
    cancelled := fun _ _ h => Or.inr h }

/-- Forgetting a child takes it out of its parent's children. -/
theorem mem_children_forget (m : MacroRuntimeState) {j p : ℕ}
    (hj : j ∈ (forgetInstance m i).instanceChildren.getD p ∅) :
    j ∈ m.instanceChildren.getD p ∅ ∧
      ∀ info, m.instanceMeta.get? i = some info → info.parentInstanceId = some p → j ≠ i := by
  by_cases hp : p = i
  · simp only [forgetInstance, Dict.getD, hp, Dict.get?_erase_self] at hj
    exact absurd hj (Finset.notMem_empty j)
  · simp only [forgetInstance, Dict.getD, Dict.get?_erase_of_ne _ hp] at hj
    cases hparent : (m.instanceMeta.get? i).bind (·.parentInstanceId) with
    | none =>
      simp only [hparent] at hj
      refine ⟨hj, fun info hinfo habove => ?_⟩
      rw [hinfo, Option.bind_some, habove] at hparent
      cases hparent
    | some q =>
      simp only [hparent] at hj
      cases hsiblings : m.instanceChildren.get? q with
      | none =>
        simp only [hsiblings] at hj
        refine ⟨hj, fun info hinfo habove => ?_⟩
        rw [hinfo, Option.bind_some, habove] at hparent
        cases hparent
        rw [hsiblings] at hj
        exact absurd hj (Finset.notMem_empty j)
      | some siblings =>
        simp only [hsiblings, Dict.get?_insert] at hj
        by_cases hpq : p = q
        · rw [if_pos hpq, Option.getD_some] at hj
          refine ⟨?_, fun _ _ _ => Finset.ne_of_mem_erase hj⟩
          rw [Dict.getD, hpq, hsiblings]
          exact Finset.mem_of_mem_erase hj
        · rw [if_neg hpq] at hj
          refine ⟨hj, fun info hinfo habove => ?_⟩
          rw [hinfo, Option.bind_some, habove] at hparent
          cases hparent
          exact absurd rfl hpq

/-- An instance whose task is over or cancelled may be forgotten. -/
theorem later_forget (h : Trees m) (hi : i ∈ m.alive → i ∈ m.dying) :
    Later P m (forgetInstance m i) where
  instanceSeq := rfl
  instanceMeta := by
    intro j info' hinfo'
    change (m.instanceMeta.erase i).get? j = some info' at hinfo'
    rw [Dict.get?_erase] at hinfo'
    split at hinfo'
    · cases hinfo'
    · exact ⟨info', hinfo', SameKind.refl info'⟩
  children := by
    intro p j hj
    obtain ⟨hold, hne⟩ := mem_children_forget m hj
    refine ⟨hold, fun hm => ?_⟩
    change (m.instanceMeta.erase i).get? j ≠ none
    rw [Dict.get?_erase_of_ne]
    · exact hm
    · rintro rfl
      obtain ⟨info, hinfo, hparent⟩ := h.children p j hold
      exact hne info hinfo hparent rfl
  pauses := by
    intro j hj
    change (m.instanceMeta.erase i).get? j ≠ none at hj
    change (m.pauses.erase i).get? j = none ↔ _
    rw [Dict.get?_erase] at hj ⊢
    split at hj
    · exact absurd rfl hj
    · rename_i hne
      rw [if_neg hne]
  alive := fun _ hj => hj
  dying := fun _ hj => hj
  gone := by
    intro j hj hnone
    change (m.instanceMeta.erase i).get? j = none at hnone
    rw [Dict.get?_erase] at hnone
    split at hnone
    · rename_i heq
      exact Or.inl (heq ▸ hi (heq ▸ hj))
    · exact Or.inr hnone
  cancelled := fun _ _ hc => Or.inr (Finset.mem_of_mem_erase hc)
  calm := by
    intro j info info' hinfo hinfo' _
    change (m.instanceMeta.erase i).get? j = some info' at hinfo'
    rw [Dict.get?_erase] at hinfo'
    split at hinfo'
    · cases hinfo'
    · rename_i hne
      rw [hinfo] at hinfo'
      cases hinfo'
      refine ⟨fun hf => hf, fun hf => hf, fun hp => ?_⟩
      change (m.pauses.erase i).get? j = some true
      rwa [Dict.get?_erase_of_ne _ hne]

theorem later_forgetDone (h : Trees m) (i : ℕ) : Later P m (forgetDone m i) := by
  unfold forgetDone
  split
  · exact Later.refl m
  · rename_i hdone
    exact later_forget h fun hi => absurd hi hdone

theorem later_expirePausedInstance (h : Trees m) (i : ℕ) :
    Later P m (expirePausedInstance m i) := by
  unfold expirePausedInstance
  split
  · exact Later.refl m
  · have hmark := later_markCancelled (P := P) m (descendantInstanceIds m {i})
    exact hmark.trans (Later.foldl (I := Trees) (fun _ _ h hl => h.later hl)
      (fun m hm j _ => later_forgetDone hm j) (h.later hmark))

theorem later_stopLoopInstances (m : MacroRuntimeState) (ids : List ℕ) :
    Later P m (stopLoopInstances m ids).1 :=
  (later_markLoopStopping m _).trans (later_markCancelled _ _)

theorem later_releaseTrigger (m : MacroRuntimeState) (source : Key) :
    Later P m (releaseTrigger m source).1 := by
  have hmark : Later P m (if isSource source then markSourceReleased m source else m) := by
    split
    · exact later_markSourceReleased m source
    · exact Later.refl m
  refine hmark.trans (Later.trans ?_ (later_stopLoopInstances _ _))
  exact Later.foldl (I := fun _ => True) (fun _ _ _ _ => trivial)
    (fun m _ i _ => later_pauseInstance m i) trivial

/-- Descendants have what passes from an instance to its children. -/
theorem descendant_of {Q : ℕ → Prop}
    (hQ : ∀ p, Q p → ∀ i ∈ m.instanceChildren.getD p ∅, Q i) {ids : Finset ℕ}
    (hids : ∀ i ∈ ids, Q i) : ∀ i ∈ descendantInstanceIds m ids, Q i := by
  unfold descendantInstanceIds
  generalize List.range (m.instanceSeq + 1) = order
  induction order generalizing ids with
  | nil => exact hids
  | cons p order ih =>
    rw [List.foldl_cons]
    apply ih
    split
    · rename_i hp
      intro i hi
      rcases Finset.mem_union.mp hi with hi | hi
      · exact hids i hi
      · exact hQ p (hids p hp) i hi
    · exact hids

theorem subset_descendants (m : MacroRuntimeState) (ids : Finset ℕ) :
    ids ⊆ descendantInstanceIds m ids := by
  unfold descendantInstanceIds
  generalize List.range (m.instanceSeq + 1) = order
  induction order generalizing ids with
  | nil => exact Finset.Subset.refl ids
  | cons p order ih =>
    rw [List.foldl_cons]
    refine Finset.Subset.trans ?_ (ih _)
    split
    · exact Finset.subset_union_left
    · exact Finset.Subset.refl ids

theorem later_resumeInstance (hi : ∀ info, m.instanceMeta.get? i = some info → ¬P info.source) :
    Later P m (resumeInstance m i) := by
  unfold resumeInstance
  split
  · exact Later.refl m
  · split
    · exact Later.refl m
    · rename_i hpaused
      refine later_flags (fun _ info => info) (fun _ => Option.map_id'.symm)
        (fun _ info _ => SameKind.refl info) rfl (fun j => ?_)
        (fun j info hinfo hP => ⟨fun h => h, fun h => h, fun h => ?_⟩)
      · rw [Dict.get?_insert]
        split
        · rename_i hj
          rw [hj]
          exact iff_of_false (by simp) hpaused
        · exact Iff.rfl
      · rw [Dict.get?_insert, if_neg]
        · exact h
        · rintro rfl
          exact hi info hinfo hP

/-- The subtree of an instance has its trigger. -/
theorem later_resumeInstances (h : Trees m) {source : Key} {rootId : ℕ} {info : InstanceMeta}
    (hinfo : m.instanceMeta.get? rootId = some info) (hsource : info.source = source)
    (order : List ℕ) :
    Later (· ≠ source) m
      ((order.filter (· ∈ descendantInstanceIds m {rootId})).foldl resumeInstance m) := by
  have hall : ∀ i ∈ descendantInstanceIds m {rootId},
      ∃ info, m.instanceMeta.get? i = some info ∧ info.source = source := by
    refine descendant_of (fun p hp i hi => ?_) (fun i hi => ?_)
    · obtain ⟨above, habove, hsource⟩ := hp
      obtain ⟨info, hinfo, hparent⟩ := h.children p i hi
      exact ⟨info, hinfo, (h.parent i info p above hinfo hparent habove).symm.trans hsource⟩
    · rw [Finset.mem_singleton.mp hi]
      exact ⟨info, hinfo, hsource⟩
  refine Later.foldl (I := fun m' => ∀ i info', m'.instanceMeta.get? i = some info' →
      i ∈ descendantInstanceIds m {rootId} → info'.source = source)
    (fun m₁ m₂ hm hl i info₂ hinfo₂ hi => ?_) (fun m₁ hm i hi => ?_) (fun i info' hget hi => ?_)
  · obtain ⟨info₁, hinfo₁, hkind⟩ := hl.instanceMeta i info₂ hinfo₂
    exact hkind.source.trans (hm i info₁ hinfo₁ hi)
  · refine later_resumeInstance fun info' hinfo' hne => hne (hm i info' hinfo' ?_)
    simpa using (List.mem_filter.mp hi).2
  · obtain ⟨info₀, hinfo₀, hsource⟩ := hall i hi
    rw [hget] at hinfo₀
    cases hinfo₀
    exact hsource

/-- Resuming a root concerns its own trigger alone. -/
theorem later_resumeRoot (h : Trees m) {source : Key} {rootId : ℕ}
    (hroot : ∀ info, m.instanceMeta.get? rootId = some info → info.source = source) :
    Later (· ≠ source) m (resumeRoot m rootId) := by
  unfold resumeRoot
  split
  · exact Later.refl m
  · rename_i info hinfo
    have hfirst : Later (· ≠ source) m { m with
        instanceMeta := m.instanceMeta.insert rootId
          { info with sourceLifecycleActive := true } } := by
      refine later_flags (fun i old =>
          if i = rootId then { old with sourceLifecycleActive := true } else old)
        (fun i => ?_) (fun i old _ => ?_) rfl (fun _ => Iff.rfl) (fun i old hold hne => ?_)
      · change (m.instanceMeta.insert rootId _).get? i = _
        rw [Dict.get?_insert]
        by_cases hi : i = rootId
        · simp [hi, hinfo]
        · simp [hi]
      · split
        · exact ⟨rfl, rfl, rfl, rfl, rfl, rfl⟩
        · exact SameKind.refl old
      · rw [if_neg]
        · exact ⟨fun h => h, fun h => h, fun h => h⟩
        · rintro rfl
          exact hne (hroot old hold)
    exact hfirst.trans (later_resumeInstances (h.later hfirst) (Dict.get?_insert_self _ _ _)
      (hroot info hinfo) _)

/-- What a run of `resume_paused_macro` has found: roots of its own trigger. -/
theorem later_resumableRoots (h : Trees m) (source : Key) (macroName : String)
    (expired : Finset ℕ) (ids : List ℕ) (roots : List ℕ)
    (hids : ∀ i ∈ ids, ∀ info, m.instanceMeta.get? i = some info → info.source = source)
    (hroots : ∀ r ∈ roots, ∀ info, m.instanceMeta.get? r = some info → info.source = source) :
    Later P m (ids.foldl (resumableRoot macroName expired) (roots, m)).2 ∧
      ∀ r ∈ (ids.foldl (resumableRoot macroName expired) (roots, m)).1, ∀ info,
        (ids.foldl (resumableRoot macroName expired) (roots, m)).2.instanceMeta.get? r =
          some info → info.source = source := by
  induction ids generalizing m roots with
  | nil => exact ⟨Later.refl m, hroots⟩
  | cons i ids ih =>
    rw [List.foldl_cons]
    have hsame : ∀ m' : MacroRuntimeState, Later P m m' → ∀ roots' : List ℕ,
        (∀ r ∈ roots', ∀ info, m'.instanceMeta.get? r = some info → info.source = source) →
        Later P m (ids.foldl (resumableRoot macroName expired) (roots', m')).2 ∧
          ∀ r ∈ (ids.foldl (resumableRoot macroName expired) (roots', m')).1, ∀ info,
            (ids.foldl (resumableRoot macroName expired) (roots', m')).2.instanceMeta.get? r =
              some info → info.source = source := by
      intro m' hl roots' hroots'
      have hrest : ∀ j ∈ ids, ∀ info, m'.instanceMeta.get? j = some info →
          info.source = source := by
        intro j hj info' hinfo'
        obtain ⟨info, hinfo, hkind⟩ := hl.instanceMeta j info' hinfo'
        exact hkind.source.trans (hids j (List.mem_cons_of_mem i hj) info hinfo)
      obtain ⟨hlater, hfound⟩ := ih (h.later hl) roots' hrest hroots'
      exact ⟨hl.trans hlater, hfound⟩
    unfold resumableRoot
    dsimp only
    split
    · exact hsame m (Later.refl m) roots hroots
    · split
      · exact hsame m (Later.refl m) roots hroots
      · split
        · have hexpire := later_expirePausedInstance (P := P) h i
          refine hsame _ hexpire roots fun r hr info' hinfo' => ?_
          obtain ⟨info, hinfo, hkind⟩ := hexpire.instanceMeta r info' hinfo'
          exact hkind.source.trans (hroots r hr info hinfo)
        · split
          · exact hsame m (Later.refl m) roots hroots
          · rename_i info hinfo
            split
            · exact hsame m (Later.refl m) roots hroots
            · rename_i above habove
              split
              · refine hsame m (Later.refl m) _ fun r hr info' hinfo' => ?_
                rcases List.mem_append.mp hr with hr | hr
                · exact hroots r hr info' hinfo'
                · rw [List.mem_singleton.mp hr] at hinfo'
                  exact (h.root i info info' hinfo hinfo').trans
                    (hids i List.mem_cons_self info hinfo)
              · exact hsame m (Later.refl m) roots hroots

theorem mem_findMatching {mode : Option LoopMode} {source : Key} :
    i ∈ findMatchingMacroInstances m mode source ↔ ∃ info, m.instanceMeta.get? i = some info ∧
      i ∈ m.alive ∧ i ∉ m.cancelInstanceIds ∧ (mode = none ∨ mode = some info.loopMode) ∧
        info.source = source := by
  unfold findMatchingMacroInstances
  rw [← Dict.contains_iff, Dict.contains, Option.isSome_iff_exists]
  simp only [Dict.get?_filter_eq_some, decide_eq_true_eq]

theorem later_resumePausedMacro (h : Trees m) (options : MacroPlaybackOptions)
    (expired : Finset ℕ) :
    Later (· ≠ options.source) m (resumePausedMacro m options expired).2 := by
  unfold resumePausedMacro
  split
  · exact Later.refl m
  · obtain ⟨hlater, hroots⟩ := later_resumableRoots (P := (· ≠ options.source)) h
      options.source options.macroName expired
      (findMatchingMacroInstances m none options.source) [] (fun i hi info hinfo => by
        obtain ⟨info', hinfo', -, -, -, hsource⟩ := mem_findMatching.mp hi
        rw [hinfo] at hinfo'
        cases hinfo'
        exact hsource) (fun r hr => absurd hr List.not_mem_nil)
    refine hlater.trans ?_
    refine Later.foldl (I := fun m' => Trees m' ∧ ∀ r ∈ ((findMatchingMacroInstances m none
        options.source).foldl (resumableRoot options.macroName expired) ([], m)).1, ∀ info,
        m'.instanceMeta.get? r = some info → info.source = options.source)
      (fun m₁ m₂ hm hl => ⟨hm.1.later hl, fun r hr info₂ hinfo₂ => ?_⟩) (fun m₁ hm r hr => ?_)
      ⟨h.later hlater, hroots⟩
    · obtain ⟨info₁, hinfo₁, hkind⟩ := hl.instanceMeta r info₂ hinfo₂
      exact hkind.source.trans (hm.2 r hr info₁ hinfo₁)
    · exact later_resumeRoot hm.1 (hm.2 r (List.mem_of_mem_filter hr))

/-! ## Started instances -/

/-- A new instance looks up the lifecycle of its own source or of its parent's root. -/
theorem sourceLifecycle_allocate (h : Trees m) (options : MacroPlaybackOptions)
    (mode : LoopMode) (source : Key) (parent : Option ℕ)
    (hparent : ∀ p, parent = some p → m.instanceMeta.get? p ≠ none) :
    sourceLifecycle (allocateInstance m options mode source parent) (m.instanceSeq + 1) =
      parent.elim (isSource source, true) (sourceLifecycle m) := by
  cases parent with
  | none => simp [sourceLifecycle, allocateInstance]
  | some p =>
    obtain ⟨above, habove⟩ := Option.ne_none_iff_exists'.mp (hparent p rfl)
    have hle := (h.issued p above habove).2.1
    have hne : above.rootInstanceId ≠ m.instanceSeq + 1 := by omega
    simp only [sourceLifecycle, allocateInstance, Dict.get?_insert_self, Option.bind_some, habove,
      Dict.get?_insert_of_ne _ _ hne, Option.elim_some]

theorem pauses_startMacroInstance (m : MacroRuntimeState) (options : MacroPlaybackOptions)
    (mode : LoopMode) (source : Key) (parent : Option ℕ) (hi : i ≠ m.instanceSeq + 1) :
    (startMacroInstance m options mode source parent).pauses.get? i = m.pauses.get? i := by
  unfold startMacroInstance
  dsimp only
  split
  · exact Dict.get?_insert_of_ne _ _ hi
  · rfl

theorem startMacroInstance_eq (m : MacroRuntimeState) (options : MacroPlaybackOptions)
    (mode : LoopMode) (source : Key) (parent : Option ℕ) :
    startMacroInstance m options mode source parent =
      { allocateInstance m options mode source parent with
        pauses := (startMacroInstance m options mode source parent).pauses } := by
  unfold startMacroInstance
  dsimp only
  split
  · rfl
  · rfl

/-- The metadata of the new instance, and that of the others as it was. -/
theorem meta_start {options : MacroPlaybackOptions} {mode : LoopMode} {source : Key}
    {parent : Option ℕ} {info : InstanceMeta}
    (hinfo : (startMacroInstance m options mode source parent).instanceMeta.get? i = some info) :
    (i = m.instanceSeq + 1 ∧ info.loopMode = mode ∧ info.source = source ∧
      info.loopStopBehavior = normalizeMacroLoopStopBehavior options.loopStopBehavior ∧
      info.parentInstanceId = parent ∧
      info.rootInstanceId = (match parent.bind m.instanceMeta.get? with
        | some above => above.rootInstanceId
        | none => m.instanceSeq + 1) ∧
      (info.sourceLifecycleAvailable = true → parent = none ∧ isSource source = true)) ∨
    (i ≠ m.instanceSeq + 1 ∧ m.instanceMeta.get? i = some info) := by
  rw [startMacroInstance_eq] at hinfo
  change (m.instanceMeta.insert (m.instanceSeq + 1) _).get? i = some info at hinfo
  rw [Dict.get?_insert] at hinfo
  split at hinfo
  · rename_i hi
    cases hinfo
    exact Or.inl ⟨hi, rfl, rfl, rfl, rfl, rfl, fun ha => by simpa using ha⟩
  · rename_i hi
    exact Or.inr ⟨hi, hinfo⟩

/-- A hold instance starts under a trigger, and a child under that of its parent. -/
theorem Trees.start (h : Trees m) (options : MacroPlaybackOptions) (mode : LoopMode) (source : Key)
    (parent : Option ℕ)
    (hparent : ∀ p, parent = some p →
      ∃ above, m.instanceMeta.get? p = some above ∧ above.source = source)
    (hhold : mode = .hold → isSource source = true ∧
      ∀ p, parent = some p → (sourceLifecycle m p).1 = true) :
    Trees (startMacroInstance m options mode source parent) := by
  have hseq : (startMacroInstance m options mode source parent).instanceSeq =
      m.instanceSeq + 1 := by
    rw [startMacroInstance_eq]
    rfl
  have hlifecycle := sourceLifecycle_allocate h options mode source parent fun p hp => by
    obtain ⟨above, habove, -⟩ := hparent p hp
    rw [habove]
    simp
  have hle : ∀ p, parent = some p → p ≤ m.instanceSeq := by
    intro p hp
    obtain ⟨above, habove, -⟩ := hparent p hp
    exact (h.issued p above habove).1
  constructor
  · intro i info hinfo
    rw [hseq]
    rcases meta_start hinfo with ⟨rfl, -, -, -, hp, hr, -⟩ | ⟨-, hold⟩
    · refine ⟨le_rfl, ?_, fun p hp' => (hle p (hp.symm.trans hp')).trans (Nat.le_succ _)⟩
      rw [hr]
      cases hpar : parent with
      | none => exact le_rfl
      | some p =>
        obtain ⟨above, habove, -⟩ := hparent p hpar
        rw [Option.bind_some, habove]
        exact (h.issued p above habove).2.1.trans (Nat.le_succ _)
    · obtain ⟨hi, hr, hp⟩ := h.issued i info hold
      exact ⟨hi.trans (Nat.le_succ _), hr.trans (Nat.le_succ _),
        fun p hp' => (hp p hp').trans (Nat.le_succ _)⟩
  · intro p i hi
    have hcases : i ∈ m.instanceChildren.getD p ∅ ∨ (i = m.instanceSeq + 1 ∧ parent = some p) := by
      rw [startMacroInstance_eq] at hi
      cases hpar : parent with
      | none =>
        rw [hpar] at hi
        change i ∈ (m.instanceChildren.insert (m.instanceSeq + 1) ∅).getD p ∅ at hi
        rw [Dict.getD, Dict.get?_insert] at hi
        split at hi
        · exact absurd hi (Finset.notMem_empty i)
        · exact Or.inl hi
      | some q =>
        rw [hpar] at hi
        change i ∈ ((m.instanceChildren.insert (m.instanceSeq + 1) ∅).addTo q
          (m.instanceSeq + 1)).getD p ∅ at hi
        rcases Dict.mem_getD_addTo.mp hi with ⟨hq, hnew⟩ | hold
        · exact Or.inr ⟨hnew, by rw [hq]⟩
        · rw [Dict.getD, Dict.get?_insert] at hold
          split at hold
          · exact absurd hold (Finset.notMem_empty i)
          · exact Or.inl hold
    rcases hcases with hi | ⟨rfl, hp⟩
    · obtain ⟨info, hinfo, hp⟩ := h.children p i hi
      refine ⟨info, ?_, hp⟩
      have hne : i ≠ m.instanceSeq + 1 := by
        have hissued := (h.issued i info hinfo).1
        omega
      rw [startMacroInstance_eq]
      exact (Dict.get?_insert_of_ne _ _ hne).trans hinfo
    · obtain ⟨info, hinfo⟩ : ∃ info, (startMacroInstance m options mode source
          parent).instanceMeta.get? (m.instanceSeq + 1) = some info := by
        rw [startMacroInstance_eq]
        exact ⟨_, Dict.get?_insert_self _ _ _⟩
      refine ⟨info, hinfo, ?_⟩
      rcases meta_start hinfo with ⟨-, -, -, -, hp', -⟩ | ⟨hne, -⟩
      · exact hp'.trans hp
      · exact absurd rfl hne
  · intro i info p above hinfo hp habove
    rcases meta_start hinfo with ⟨rfl, -, hs, -, hp', -⟩ | ⟨-, hold⟩
    · obtain ⟨above₀, habove₀, hs₀⟩ := hparent p (hp'.symm.trans hp)
      have hlep := hle p (hp'.symm.trans hp)
      rcases meta_start habove with ⟨rfl, -⟩ | ⟨-, habove'⟩
      · omega
      · rw [habove₀] at habove'
        cases habove'
        exact hs₀.trans hs.symm
    · have hlep := (h.issued i info hold).2.2 p hp
      rcases meta_start habove with ⟨rfl, -⟩ | ⟨-, habove'⟩
      · omega
      · exact h.parent i info p above hold hp habove'
  · intro i info above hinfo habove
    rcases meta_start hinfo with ⟨rfl, -, hs, -, hp', hr, -⟩ | ⟨-, hold⟩
    · rw [hr] at habove
      cases hpar : parent with
      | none =>
        rw [hpar] at habove
        rcases meta_start habove with ⟨-, -, hs', -⟩ | ⟨hne, -⟩
        · exact hs'.trans hs.symm
        · exact absurd rfl hne
      | some p =>
        obtain ⟨above₀, habove₀, hs₀⟩ := hparent p hpar
        rw [hpar, Option.bind_some, habove₀] at habove
        dsimp only at habove
        have hler := (h.issued p above₀ habove₀).2.1
        rcases meta_start habove with ⟨heq, -⟩ | ⟨-, habove'⟩
        · omega
        · exact (h.root p above₀ above habove₀ habove').trans (hs₀.trans hs.symm)
    · have hler := (h.issued i info hold).2.1
      rcases meta_start habove with ⟨heq, -⟩ | ⟨-, habove'⟩
      · omega
      · exact h.root i info above hold habove'
  · intro i info hinfo havailable
    rcases meta_start hinfo with ⟨-, -, hs, -, hp, -, ha⟩ | ⟨-, hold⟩
    · rw [hs, hp]
      exact ha havailable
    · exact h.available i info hold havailable
  · intro i info hinfo hmode
    rcases meta_start hinfo with ⟨rfl, hm, hs, hb, -⟩ | ⟨hne, hold⟩
    · obtain ⟨hsource, havail⟩ := hhold (hm.symm.trans hmode)
      refine ⟨hs ▸ hsource, fun hstop => ?_⟩
      have hfirst : (sourceLifecycle (allocateInstance m options mode source parent)
          (m.instanceSeq + 1)).1 = true := by
        rw [hlifecycle]
        cases hpar : parent with
        | none => exact hsource
        | some p => exact havail p hpar
      unfold startMacroInstance
      dsimp only
      rw [if_pos ⟨hb.symm.trans hstop, by rw [← hm, hmode]; simp, hfirst⟩, Dict.get?_insert_self]
      simp
    · obtain ⟨hsource, hpause⟩ := h.hold i info hold hmode
      rw [pauses_startMacroInstance m options mode source parent hne]
      exact ⟨hsource, hpause⟩
  · intro i hi
    rw [hseq]
    rw [startMacroInstance_eq] at hi ⊢
    rcases Finset.mem_insert.mp hi with rfl | hi
    · refine ⟨le_rfl, fun hnone => ?_, fun hc => absurd hc (Finset.notMem_erase _ _)⟩
      change (m.instanceMeta.insert _ _).get? (m.instanceSeq + 1) = none at hnone
      rw [Dict.get?_insert_self] at hnone
      cases hnone
    · obtain ⟨hle', hgone, hcancel⟩ := h.known i hi
      refine ⟨hle'.trans (Nat.le_succ _), fun hnone => hgone ?_,
        fun hc => hcancel (Finset.mem_of_mem_erase hc)⟩
      change (m.instanceMeta.insert _ _).get? i = none at hnone
      rwa [Dict.get?_insert_of_ne _ _ (by omega)] at hnone

/-! ## Released triggers -/

/-- The roots of the trigger are released, and its live hold instances are paused, or on their
last iteration. -/
structure Ended (m : MacroRuntimeState) (source : Key) : Prop where
  roots : ∀ r info, m.instanceMeta.get? r = some info → info.parentInstanceId = none →
    info.source = source → info.sourceLifecycleActive = false
  hold : ∀ i info, i ∈ m.alive → i ∉ m.dying → m.instanceMeta.get? i = some info →
    info.loopMode = .hold → info.source = source →
      m.pauses.get? i = some true ∨ (m.pauses.get? i = none ∧ info.loopActive = false)

theorem Ended.later {source : Key} (h : Ended m source) (hl : Later P m m') (hP : P source) :
    Ended m' source where
  roots := by
    intro r info' hinfo' hparent hsource
    obtain ⟨info, hinfo, hkind⟩ := hl.instanceMeta r info' hinfo'
    have hs := hkind.source.symm.trans hsource
    have hactive := h.roots r info hinfo (hkind.parentInstanceId.symm.trans hparent) hs
    exact (hl.calm r info info' hinfo hinfo' (hs ▸ hP)).1 hactive
  hold := by
    intro i info' halive hdying hinfo' hmode hsource
    obtain ⟨info, hinfo, hkind⟩ := hl.instanceMeta i info' hinfo'
    have hs := hkind.source.symm.trans hsource
    obtain ⟨-, hloop, hpaused⟩ := hl.calm i info info' hinfo hinfo' (hs ▸ hP)
    rcases h.hold i info (hl.alive i halive) (fun hd => hdying (hl.dying i hd)) hinfo
      (hkind.loopMode.symm.trans hmode) hs with hp | ⟨hp, ha⟩
    · exact Or.inl (hpaused hp)
    · exact Or.inr ⟨(hl.pauses i (by rw [hinfo']; simp)).mpr hp, hloop ha⟩

/-- A start leaves a released trigger as it is unless it starts an instance of that trigger. -/
theorem Ended.start {released : Key} (h : Ended m released)
    (options : MacroPlaybackOptions) (mode : LoopMode) (source : Key) (parent : Option ℕ)
    (hnew : source = released → parent ≠ none ∧ (mode = .hold →
      (startMacroInstance m options mode source parent).pauses.get? (m.instanceSeq + 1) =
        some true)) :
    Ended (startMacroInstance m options mode source parent) released where
  roots := by
    intro r info hinfo hparent hsource
    rcases meta_start hinfo with ⟨rfl, -, hs, -, hp, -⟩ | ⟨-, hold⟩
    · exact absurd (hp.symm.trans hparent) (hnew (hs.symm.trans hsource)).1
    · exact h.roots r info hold hparent hsource
  hold := by
    intro i info halive hdying hinfo hmode hsource
    rcases meta_start hinfo with ⟨rfl, hm, hs, -⟩ | ⟨hne, hold⟩
    · exact Or.inl ((hnew (hs.symm.trans hsource)).2 (hm.symm.trans hmode))
    · rw [pauses_startMacroInstance m options mode source parent hne]
      rw [startMacroInstance_eq] at halive hdying
      refine h.hold i info ?_ hdying hold hmode hsource
      exact (Finset.mem_insert.mp halive).resolve_left hne

theorem foldl_pauseInstance (ids : List ℕ) (m : MacroRuntimeState) (i : ℕ) :
    (ids.foldl pauseInstance m).pauses.get? i =
      if i ∈ ids ∧ m.pauses.get? i ≠ none then some true else m.pauses.get? i := by
  induction ids generalizing m with
  | nil => simp
  | cons j ids ih =>
    have hstep : (pauseInstance m j).pauses.get? i =
        if i = j ∧ m.pauses.get? i ≠ none then some true else m.pauses.get? i := by
      unfold pauseInstance
      split
      · rename_i hrunning
        rw [Dict.get?_insert]
        by_cases hi : i = j
        · rw [hi, hrunning]
          simp
        · simp [hi]
      · rename_i hrunning
        by_cases hi : i = j
        · rw [hi]
          cases hp : m.pauses.get? j with
          | none => simp
          | some paused =>
            cases paused with
            | false => exact absurd hp hrunning
            | true => simp
        · simp [hi]
    rw [List.foldl_cons, ih, hstep]
    by_cases hp : m.pauses.get? i = none
    · simp [hp]
    · by_cases hi : i = j
      · simp [← hi, hp]
      · simp [hi, hp]

/-- Pausing touches the pauses alone. -/
theorem foldl_pauseInstance_eq (ids : List ℕ) (m : MacroRuntimeState) :
    ids.foldl pauseInstance m = { m with pauses := (ids.foldl pauseInstance m).pauses } := by
  induction ids generalizing m with
  | nil => rfl
  | cons j ids ih =>
    have hstep : pauseInstance m j = { m with pauses := (pauseInstance m j).pauses } := by
      unfold pauseInstance
      split
      · rfl
      · rfl
    rw [List.foldl_cons, ih, hstep]

/-- The release that is handled ends its trigger. -/
theorem ended_releaseTrigger (ht : Trees m) {source : Key} (hsource : isSource source = true) :
    Ended (releaseTrigger m source).1 source := by
  have hmarked : ∀ r info, (markSourceReleased m source).instanceMeta.get? r = some info →
      info.parentInstanceId = none → info.source = source →
        info.sourceLifecycleActive = false := by
    intro r info hinfo hparent hs
    change (m.instanceMeta.mapVal _).get? r = some info at hinfo
    rw [Dict.get?_mapVal, Option.map_eq_some_iff] at hinfo
    obtain ⟨old, -, rfl⟩ := hinfo
    split at hparent
    · rename_i hold
      rw [if_pos hold]
    · rename_i hold
      rw [if_neg hold] at hs
      exact absurd ⟨hparent, hs⟩ hold
  unfold releaseTrigger
  rw [if_pos hsource]
  dsimp only
  generalize hmark : markSourceReleased m source = m₁ at hmarked ⊢
  have ht₁ : Trees m₁ := hmark ▸ ht.later (later_markSourceReleased (P := fun _ => True) m source)
  generalize hids : findMatchingMacroInstances m₁ none source = ids
  have hget := foldl_pauseInstance ids m₁
  have heq := foldl_pauseInstance_eq ids m₁
  generalize ids.foldl pauseInstance m₁ = m₂ at hget heq ⊢
  have hmeta : m₂.instanceMeta = m₁.instanceMeta := by rw [heq]
  have halive : m₂.alive = m₁.alive := by rw [heq]
  have hcancel : m₂.cancelInstanceIds = m₁.cancelInstanceIds := by rw [heq]
  have hdying : m₂.dying = m₁.dying := by rw [heq]
  have hstop : Later (fun _ => True) m₂
      (stopLoopInstances m₂ (findMatchingMacroInstances m₂ (some .hold) source)).1 :=
    later_stopLoopInstances _ _
  constructor
  · intro r info' hinfo' hparent hs
    obtain ⟨info, hinfo, hkind⟩ := hstop.instanceMeta r info' hinfo'
    refine (hstop.calm r info info' hinfo hinfo' trivial).1 ?_
    rw [hmeta] at hinfo
    exact hmarked r info hinfo (hkind.parentInstanceId.symm.trans hparent)
      (hkind.source.symm.trans hs)
  · intro i info' hi hnot hinfo' hmode hs
    obtain ⟨info, hinfo, hkind⟩ := hstop.instanceMeta i info' hinfo'
    have hmode₁ := hkind.loopMode.symm.trans hmode
    have hs₁ := hkind.source.symm.trans hs
    have hi₂ := hstop.alive i hi
    have hnot₂ : i ∉ m₂.cancelInstanceIds := by
      intro hc
      refine hnot (hstop.dying i ?_)
      rw [hdying]
      rw [hcancel] at hc
      exact (ht₁.known i (halive ▸ hi₂)).2.2 hc
    have hmatch : i ∈ ids := by
      rw [← hids, mem_findMatching]
      exact ⟨info, hmeta ▸ hinfo, halive ▸ hi₂, hcancel ▸ hnot₂, Or.inl rfl, hs₁⟩
    have hhold : i ∈ findMatchingMacroInstances m₂ (some .hold) source :=
      mem_findMatching.mpr ⟨info, hinfo, hi₂, hnot₂, Or.inr (by rw [hmode₁]), hs₁⟩
    by_cases hpause : m₂.pauses.get? i = none
    · refine Or.inr ⟨(hstop.pauses i (by rw [hinfo']; simp)).mpr hpause, ?_⟩
      have hlist : i ∈ (findMatchingMacroInstances m₂ (some .hold) source).filter fun i =>
          m₂.pauses.get? i = none := by
        rw [List.mem_filter]
        exact ⟨hhold, by simpa using hpause⟩
      by_cases hcancels : cancelsRun m₂ i = true
      · exfalso
        apply hnot
        refine Finset.mem_union_right _ (subset_descendants _ _ ?_)
        rw [List.mem_toFinset, List.mem_filter]
        exact ⟨hlist, hcancels⟩
      · change ((m₂.instanceMeta).mapVal _).get? i = some info' at hinfo'
        rw [Dict.get?_mapVal, hinfo, Option.map_some, Option.some.injEq, if_pos] at hinfo'
        · rw [← hinfo']
        · rw [List.mem_filter]
          exact ⟨hlist, by simpa using hcancels⟩
    · refine Or.inl ((hstop.calm i info info' hinfo hinfo' trivial).2.2 ?_)
      rw [hget, if_pos]
      refine ⟨hmatch, fun hnone => hpause ?_⟩
      rw [hget, if_neg]
      · exact hnone
      · exact fun h => h.2 hnone

end Steps

/-! ## Requests of one trigger -/

/-- The requests of a trigger are in the order of their arrival, all but the first wait, and none
is older than what was handled last. `serving` is the request that is being served. -/
structure InOrder (source : Key) (arrived : ℕ) (last : Option (ℕ × Int)) (dying : Finset ℕ)
    (serving : Option ℕ) (queue : List Request) : Prop where
  sources : ∀ r ∈ queue, r.options.source = source
  sorted : queue.Pairwise fun r r' => r.serial < r'.serial
  arrivals : ∀ r ∈ queue, r.serial < arrived
  waiting : isSource source = true → ∀ r ∈ queue.tail, r.phase = .waiting
  handled : ∀ n v, last = some (n, v) → isSource source = true ∧ n < arrived ∧
    ∀ r ∈ queue, n ≤ r.serial ∧ (r.phase = .waiting → serving ≠ some r.serial → n < r.serial)
  loading : isSource source = true → ∀ r ∈ queue, r.phase = .loading →
    serving ≠ some r.serial → last = some (r.serial, 1)
  stopping : ∀ r ∈ queue, ∀ ids, r.phase = .stopping ids → ∀ i ∈ ids, i ∈ dying
  atHead : ∀ n, serving = some n → isSource source = true →
    ∃ r rest, queue = r :: rest ∧ r.serial = n

section Queues

variable {source : Key} {arrived : ℕ} {last : Option (ℕ × Int)} {dying : Finset ℕ}
  {serving : Option ℕ} {queue : List Request}

theorem inOrder_nil (source : Key) : InOrder source arrived none dying none [] where
  sources := by simp
  sorted := List.Pairwise.nil
  arrivals := by simp
  waiting := by simp
  handled := by simp
  loading := by simp
  stopping := by simp
  atHead := by simp

theorem InOrder.dying_mono (h : InOrder source arrived last dying serving queue)
    {dying' : Finset ℕ} (hsub : ∀ i ∈ dying, i ∈ dying') :
    InOrder source arrived last dying' serving queue :=
  { h with stopping := fun r hr ids hids i hi => hsub i (h.stopping r hr ids hids i hi) }

theorem InOrder.arrive (h : InOrder source arrived last dying none queue)
    (options : MacroPlaybackOptions) (hsource : options.source = source) :
    InOrder source (arrived + 1) last dying none (queue ++ [⟨arrived, options, .waiting⟩]) where
  sources := by
    intro r hr
    rcases List.mem_append.mp hr with hr | hr
    · exact h.sources r hr
    · rw [List.mem_singleton.mp hr]
      exact hsource
  sorted := by
    rw [List.pairwise_append]
    refine ⟨h.sorted, List.pairwise_singleton _ _, fun r hr r' hr' => ?_⟩
    rw [List.mem_singleton.mp hr']
    exact h.arrivals r hr
  arrivals := by
    intro r hr
    rcases List.mem_append.mp hr with hr | hr
    · exact (h.arrivals r hr).trans (Nat.lt_succ_self _)
    · rw [List.mem_singleton.mp hr]
      exact Nat.lt_succ_self _
  waiting := by
    intro hs r hr
    cases queue with
    | nil => cases hr
    | cons head rest =>
      rw [List.cons_append, List.tail_cons] at hr
      rcases List.mem_append.mp hr with hr | hr
      · exact h.waiting hs r hr
      · rw [List.mem_singleton.mp hr]
  handled := by
    intro n v hlast
    obtain ⟨hs, hn, hall⟩ := h.handled n v hlast
    refine ⟨hs, hn.trans (Nat.lt_succ_self _), fun r hr => ?_⟩
    rcases List.mem_append.mp hr with hr | hr
    · exact hall r hr
    · rw [List.mem_singleton.mp hr]
      exact ⟨hn.le, fun _ _ => hn⟩
  loading := by
    intro hs r hr hphase hserving
    rcases List.mem_append.mp hr with hr | hr
    · exact h.loading hs r hr hphase hserving
    · rw [List.mem_singleton.mp hr] at hphase
      cases hphase
  stopping := by
    intro r hr ids hphase
    rcases List.mem_append.mp hr with hr | hr
    · exact h.stopping r hr ids hphase
    · rw [List.mem_singleton.mp hr] at hphase
      cases hphase
  atHead := by simp

/-- The request at the head is served. -/
theorem InOrder.enter (h : InOrder source arrived last dying none queue) {n : ℕ}
    (hhead : isSource source = true → ∃ r rest, queue = r :: rest ∧ r.serial = n) :
    InOrder source arrived last dying (some n) queue :=
  { h with
    handled := fun n v hlast => by
      obtain ⟨hs, hn, hall⟩ := h.handled n v hlast
      exact ⟨hs, hn, fun r hr => ⟨(hall r hr).1, fun hw _ => (hall r hr).2 hw nofun⟩⟩
    loading := fun hs r hr hphase _ => h.loading hs r hr hphase nofun
    atHead := by
      intro n' hn hs
      cases hn
      exact hhead hs }

theorem InOrder.record {n : ℕ} (h : InOrder source arrived last dying (some n) queue)
    (hsource : isSource source = true) (v : Int) :
    InOrder source arrived (some (n, v)) dying (some n) queue := by
  obtain ⟨head, rest, rfl, rfl⟩ := h.atHead n rfl hsource
  obtain ⟨hfirst, -⟩ := List.pairwise_cons.mp h.sorted
  refine { h with handled := ?_, loading := ?_ }
  · intro n' v' hlast
    cases hlast
    refine ⟨hsource, h.arrivals head List.mem_cons_self, fun r hr => ?_⟩
    rcases List.mem_cons.mp hr with rfl | hr
    · exact ⟨le_rfl, fun _ hne => absurd rfl hne⟩
    · exact ⟨(hfirst r hr).le, fun _ _ => hfirst r hr⟩
  · intro _ r hr hphase hne
    rcases List.mem_cons.mp hr with rfl | hr
    · exact absurd rfl hne
    · rw [h.waiting hsource r hr] at hphase
      cases hphase

theorem mem_tail_of_mem_tail_filter {α : Type} {p : α → Bool} {as : List α} {a : α}
    (ha : a ∈ (as.filter p).tail) : a ∈ as.tail := by
  cases as with
  | nil => exact ha
  | cons b as =>
    rw [List.filter_cons] at ha
    split at ha
    · exact List.mem_of_mem_filter ha
    · exact List.mem_of_mem_filter (List.mem_of_mem_tail ha)

/-- A request is over, be it the one that is served or another. -/
theorem InOrder.remove {n : ℕ} (h : InOrder source arrived last dying serving queue)
    (hserving : serving = none ∨ serving = some n) :
    InOrder source arrived last dying none (queue.filter fun r => r.serial ≠ n) := by
  have hne : ∀ r ∈ queue.filter (fun r => r.serial ≠ n), r ∈ queue ∧ serving ≠ some r.serial := by
    intro r hr
    obtain ⟨hr, hn⟩ := List.mem_filter.mp hr
    refine ⟨hr, ?_⟩
    rcases hserving with rfl | rfl
    · simp
    · rintro ⟨⟩
      simp at hn
  refine ⟨fun r hr => h.sources r (hne r hr).1, h.sorted.filter _, fun r hr => h.arrivals r (hne r hr).1,
    fun hs r hr => h.waiting hs r (mem_tail_of_mem_tail_filter hr), fun n' v hlast => ?_,
    fun hs r hr hphase _ => h.loading hs r (hne r hr).1 hphase (hne r hr).2,
    fun r hr => h.stopping r (hne r hr).1, nofun⟩
  obtain ⟨hs, hn, hall⟩ := h.handled n' v hlast
  refine ⟨hs, hn, fun r hr => ⟨(hall r (hne r hr).1).1, fun hw _ => ?_⟩⟩
  exact (hall r (hne r hr).1).2 hw (hne r hr).2

/-- The request that is served loads its macro or waits for tasks to stop. -/
theorem InOrder.rephase {n : ℕ} (h : InOrder source arrived last dying (some n) queue)
    {phase : Phase} (hphase : phase ≠ .waiting)
    (hloading : phase = .loading → isSource source = true → last = some (n, 1))
    (hstopping : ∀ ids, phase = .stopping ids → ∀ i ∈ ids, i ∈ dying) :
    InOrder source arrived last dying none
      (queue.map fun r => if r.serial = n then { r with phase } else r) := by
  have hserial : ∀ r : Request, (if r.serial = n then { r with phase } else r).serial = r.serial := by
    intro r
    split
    · rfl
    · rfl
  have hoptions : ∀ r : Request, (if r.serial = n then { r with phase } else r).options =
      r.options := by
    intro r
    split
    · rfl
    · rfl
  constructor
  · intro r hr
    obtain ⟨r₀, hr₀, rfl⟩ := List.mem_map.mp hr
    rw [hoptions]
    exact h.sources r₀ hr₀
  · rw [List.pairwise_map]
    simp only [hserial]
    exact h.sorted
  · intro r hr
    obtain ⟨r₀, hr₀, rfl⟩ := List.mem_map.mp hr
    rw [hserial]
    exact h.arrivals r₀ hr₀
  · intro hs r hr
    obtain ⟨head, rest, rfl, rfl⟩ := h.atHead n rfl hs
    obtain ⟨r₀, hr₀, rfl⟩ := List.mem_map.mp hr
    have hlt := (List.pairwise_cons.mp h.sorted).1 r₀ hr₀
    rw [if_neg (Nat.ne_of_gt hlt)]
    exact h.waiting hs r₀ hr₀
  · intro n' v hlast
    obtain ⟨hs, hn, hall⟩ := h.handled n' v hlast
    refine ⟨hs, hn, fun r hr => ?_⟩
    obtain ⟨r₀, hr₀, rfl⟩ := List.mem_map.mp hr
    rw [hserial]
    refine ⟨(hall r₀ hr₀).1, fun hw _ => ?_⟩
    split at hw
    · exact absurd hw hphase
    · rename_i hne
      exact (hall r₀ hr₀).2 hw fun heq => hne (Option.some.inj heq).symm
  · intro hs r hr hload _
    obtain ⟨r₀, hr₀, rfl⟩ := List.mem_map.mp hr
    rw [hserial]
    split at hload
    · rename_i heq
      rw [heq]
      exact hloading hload hs
    · rename_i hne
      exact h.loading hs r₀ hr₀ hload fun heq => hne (Option.some.inj heq).symm
  · intro r hr ids hids
    obtain ⟨r₀, hr₀, rfl⟩ := List.mem_map.mp hr
    split at hids
    · exact hstopping ids hids
    · exact h.stopping r₀ hr₀ ids hids
  · simp

end Queues

/-! ## The system -/

/-- The serial of the request that is served, for its own trigger. -/
def servedOf (serving : Option (Key × ℕ)) (source : Key) : Option ℕ :=
  serving.bind fun served => if served.1 = source then some served.2 else none

structure Inv (serving : Option (Key × ℕ)) (s : State) : Prop where
  trees : Trees s.macroState
  queues : ∀ source, InOrder source s.arrived (s.lastHandled.get? source) s.macroState.dying
    (servedOf serving source) (queueOf s source)
  ended : ∀ source n, s.lastHandled.get? source = some (n, 0) → Ended s.macroState source

theorem inv_initial : Inv none initial where
  trees := by
    have hmeta : ∀ i, initial.macroState.instanceMeta.get? i = none := fun _ => rfl
    have hnone : ∀ i info, ¬initial.macroState.instanceMeta.get? i = some info := by
      intro i info hinfo
      rw [hmeta] at hinfo
      cases hinfo
    exact ⟨fun i info h => absurd h (hnone i info),
      fun p i hi => absurd hi (Finset.notMem_empty i), fun i info _ _ h => absurd h (hnone i info),
      fun i info _ h => absurd h (hnone i info), fun i info h => absurd h (hnone i info),
      fun i info h => absurd h (hnone i info), fun i hi => absurd hi (Finset.notMem_empty i)⟩
  queues := fun source => inOrder_nil source
  ended := by
    intro source n hlast
    rw [show initial.lastHandled.get? source = none from rfl] at hlast
    cases hlast

section Steps

variable {s t : State} {serving : Option (Key × ℕ)} {P : Key → Prop} {m : MacroRuntimeState}
  {serial : ℕ} {r : Request}

theorem Inv.later (h : Inv serving s) (hl : Later P s.macroState m)
    (hP : ∀ source n, s.lastHandled.get? source = some (n, 0) → P source) :
    Inv serving { s with macroState := m } where
  trees := h.trees.later hl
  queues := fun source => (h.queues source).dying_mono hl.dying
  ended := fun source n hlast => (h.ended source n hlast).later hl (hP source n hlast)

theorem queueOf_setQueue (s : State) (source source' : Key) (queue : List Request) :
    queueOf (s.setQueue source queue) source' =
      if source' = source then queue else queueOf s source' := by
  unfold queueOf State.setQueue
  rw [Dict.getD, Dict.get?_insert]
  split
  · rfl
  · rfl

theorem requestOf_mem {source : Key} (hr : requestOf s source serial = some r) :
    r ∈ queueOf s source ∧ r.serial = serial := by
  unfold requestOf at hr
  split at hr
  · obtain ⟨hhead, hserial⟩ := Option.filter_eq_some_iff.mp hr
    exact ⟨List.mem_of_head? hhead, by simpa using hserial⟩
  · exact ⟨List.mem_of_find?_eq_some hr, by simpa using List.find?_some hr⟩

/-- A request is taken up at the head of its queue. -/
theorem Inv.enter (h : Inv none s) {source : Key} (hr : requestOf s source serial = some r) :
    Inv (some (source, serial)) s := by
  refine ⟨h.trees, fun source' => ?_, h.ended⟩
  have hq := h.queues source'
  simp only [servedOf, Option.bind_some]
  split
  · rename_i heq
    refine hq.enter fun hs => ?_
    rw [← heq] at hs ⊢
    unfold requestOf at hr
    rw [if_pos hs] at hr
    obtain ⟨hhead, hserial⟩ := Option.filter_eq_some_iff.mp hr
    obtain ⟨rest, hrest⟩ := List.head?_eq_some_iff.mp hhead
    exact ⟨r, rest, hrest, by simpa using hserial⟩
  · exact hq

theorem Inv.record {source : Key} (h : Inv (some (source, serial)) s) (value : Int)
    (hvalue : value = 0 → isSource source = true → Ended s.macroState source) :
    Inv (some (source, serial)) (s.handled source serial value) := by
  unfold State.handled
  split
  · rename_i hs
    refine ⟨h.trees, fun source' => ?_, fun source' n hlast => ?_⟩
    · change InOrder source' s.arrived ((s.lastHandled.insert source (serial, value)).get? source')
        _ _ (queueOf s source')
      have hq := h.queues source'
      rw [Dict.get?_insert]
      split
      · rename_i heq
        rw [heq] at hq ⊢
        simp only [servedOf, Option.bind_some, if_true] at hq ⊢
        exact hq.record hs value
      · exact hq
    · change (s.lastHandled.insert source (serial, value)).get? source' = some (n, 0) at hlast
      rw [Dict.get?_insert] at hlast
      split at hlast
      · rename_i heq
        cases hlast
        exact heq ▸ hvalue rfl hs
      · exact h.ended source' n hlast
  · exact h

/-- The trigger that is pressed is not released. -/
theorem Inv.not_released {source : Key} (h : Inv serving s)
    (hpressed : isSource source = true → s.lastHandled.get? source = some (serial, 1)) :
    ∀ source' n, s.lastHandled.get? source' = some (n, 0) → source' ≠ source := by
  rintro source' n hlast rfl
  have hs := ((h.queues source').handled n 0 hlast).1
  rw [hpressed hs] at hlast
  cases hlast

theorem Inv.remove {source : Key} (h : Inv serving s)
    (hserving : serving = none ∨ serving = some (source, serial)) :
    Inv none (removeRequest s source serial) := by
  refine ⟨h.trees, fun source' => ?_, h.ended⟩
  have hq := h.queues source'
  rw [removeRequest, queueOf_setQueue]
  change InOrder source' s.arrived (s.lastHandled.get? source') s.macroState.dying none _
  by_cases heq : source' = source
  · rw [if_pos heq]
    rw [heq] at hq ⊢
    refine hq.remove ?_
    rcases hserving with rfl | rfl
    · exact Or.inl rfl
    · simp [servedOf]
  · rw [if_neg heq]
    rcases hserving with rfl | rfl
    · exact hq
    · have hne : ¬source = source' := fun h => heq h.symm
      simpa only [servedOf, Option.bind_some, if_neg hne] using hq

theorem Inv.setPhase {source : Key} (h : Inv (some (source, serial)) s) {phase : Phase}
    (hphase : phase ≠ .waiting)
    (hloading : phase = .loading → isSource source = true →
      s.lastHandled.get? source = some (serial, 1))
    (hstopping : ∀ ids, phase = .stopping ids → ∀ i ∈ ids, i ∈ s.macroState.dying) :
    Inv none (setPhase s source serial phase) := by
  refine ⟨h.trees, fun source' => ?_, h.ended⟩
  have hq := h.queues source'
  rw [Playback.setPhase, queueOf_setQueue]
  change InOrder source' s.arrived (s.lastHandled.get? source') s.macroState.dying none _
  by_cases heq : source' = source
  · rw [if_pos heq]
    rw [heq] at hq ⊢
    simp only [servedOf, Option.bind_some, if_true] at hq
    exact hq.rephase hphase hloading hstopping
  · rw [if_neg heq]
    have hne : ¬source = source' := fun h => heq h.symm
    simpa only [servedOf, Option.bind_some, if_neg hne] using hq

theorem Inv.afterPlay {source : Key} {result : MacroRuntimeState × Finset ℕ}
    (h : Inv (some (source, serial)) { s with macroState := result.1 })
    (hids : ∀ i ∈ result.2, i ∈ result.1.dying) :
    Inv none (afterPlay s source serial result) := by
  unfold Playback.afterPlay
  dsimp only
  split
  · exact h.remove (Or.inr rfl)
  · refine h.setPhase nofun nofun fun ids hphase => ?_
    cases hphase
    exact hids

theorem stopLoopInstances_dying (m : MacroRuntimeState) (ids : List ℕ) :
    ∀ i ∈ (stopLoopInstances m ids).2, i ∈ (stopLoopInstances m ids).1.dying :=
  fun _ hi => Finset.mem_union_right _ hi

/-- A press starts, resumes or stops instances of its own trigger alone. -/
theorem Inv.press {source : Key} (h : Inv (some (source, serial)) s)
    (hpressed : isSource source = true → s.lastHandled.get? source = some (serial, 1))
    (options : MacroPlaybackOptions) (hsource : options.source = source) (events : Option ℕ)
    (expired : Finset ℕ) :
    Inv (some (source, serial))
        { s with macroState := (pressTrigger s.macroState options events expired).1 } ∧
      ∀ i ∈ (pressTrigger s.macroState options events expired).2,
        i ∈ (pressTrigger s.macroState options events expired).1.dying := by
  have hreleased := h.not_released hpressed
  have hresume := later_resumePausedMacro h.trees options expired
  rw [hsource] at hresume
  have hnext := h.later hresume hreleased
  unfold pressTrigger
  dsimp only
  generalize (resumePausedMacro s.macroState options expired).2 = m at hresume hnext ⊢
  split
  · exact ⟨hnext, fun _ hi => absurd hi (Finset.notMem_empty _)⟩
  · split
    · exact ⟨hnext.later (m := (stopLoopInstances m _).1) (later_stopLoopInstances m _) hreleased,
        stopLoopInstances_dying m _⟩
    · generalize hmode : (if normalizeLoopMode options.loopMode = .hold ∧
        isSource options.source = false then LoopMode.none
        else normalizeLoopMode options.loopMode) = mode
      split
      · exact ⟨hnext, fun _ hi => absurd hi (Finset.notMem_empty _)⟩
      · split
        · exact ⟨hnext, fun _ hi => absurd hi (Finset.notMem_empty _)⟩
        · refine ⟨⟨?_, fun source' => ?_, fun source' n hlast => ?_⟩,
            fun _ hi => absurd hi (Finset.notMem_empty _)⟩
          · refine hnext.trees.start options mode options.source none (by simp) fun hhold => ⟨?_, by simp⟩
            rw [hhold] at hmode
            split at hmode
            · cases hmode
            · rename_i hnot
              exact Bool.eq_true_of_not_eq_false fun hs => hnot ⟨hmode, hs⟩
          · refine (hnext.queues source').dying_mono fun i hi => ?_
            change i ∈ (startMacroInstance m options mode options.source none).dying
            rw [startMacroInstance_eq]
            exact hi
          · refine (hnext.ended source' n hlast).start options mode options.source none
              fun heq => ?_
            exact absurd (heq.symm.trans hsource) (hreleased source' n hlast)

/-- The request that is served meets `play_macro`. -/
theorem Inv.playMacro (h : Inv (some (r.options.source, r.serial)) s)
    (hpressed : r.options.triggerValue = 1 → isSource r.options.source = true →
      s.lastHandled.get? r.options.source = some (r.serial, 1)) (events : Option ℕ)
    (expired : Finset ℕ) : Inv none (playMacro s r events expired) := by
  unfold Playback.playMacro
  dsimp only
  split
  · exact h.remove (Or.inr rfl)
  · split
    · have hafter := h.later (P := fun _ => True)
        (later_releaseTrigger s.macroState r.options.source) fun _ _ _ => trivial
      have hrecord := hafter.record (0 : Int) fun _ hs => ended_releaseTrigger h.trees hs
      refine Inv.afterPlay ?_ (stopLoopInstances_dying _ _)
      have hcomm : { s.handled r.options.source r.serial 0 with
          macroState := (releaseTrigger s.macroState r.options.source).1 } =
          State.handled { s with
            macroState := (releaseTrigger s.macroState r.options.source).1 }
            r.options.source r.serial 0 := by
        unfold State.handled
        split
        · rfl
        · rfl
      rw [hcomm]
      exact hrecord
    · split
      · exact h.remove (Or.inr rfl)
      · rename_i htrigger
        obtain ⟨hnext, hids⟩ := h.press (hpressed (not_not.mp htrigger)) r.options rfl events expired
        exact hnext.afterPlay hids

theorem Inv.serve (h : Inv (some (r.options.source, r.serial)) s) (expired : Finset ℕ) :
    Inv none (serveRequest s r expired) := by
  unfold serveRequest
  dsimp only
  split
  · exact h.remove (Or.inr rfl)
  · have hpressed : ∀ s', s' = (if decide (r.options.triggerValue = 1) = true then
        s.handled r.options.source r.serial 1 else s) →
        Inv (some (r.options.source, r.serial)) s' ∧ (r.options.triggerValue = 1 →
          isSource r.options.source = true →
            s'.lastHandled.get? r.options.source = some (r.serial, 1)) := by
      rintro s' rfl
      by_cases htrigger : r.options.triggerValue = 1
      · rw [if_pos (decide_eq_true htrigger)]
        refine ⟨h.record (1 : Int) nofun, fun _ hs => ?_⟩
        rw [State.handled, if_pos hs]
        exact Dict.get?_insert_self _ _ _
      · rw [if_neg (by simpa using htrigger)]
        exact ⟨h, fun ht => absurd ht htrigger⟩
    generalize (if decide (r.options.triggerValue = 1) = true then
      s.handled r.options.source r.serial 1 else s) = s' at hpressed ⊢
    obtain ⟨hinv, hlast⟩ := hpressed s' rfl
    have hnext : Inv (some (r.options.source, r.serial)) { s' with
        macroState := (resumePausedMacro s'.macroState r.options expired).2 } := by
      by_cases htrigger : r.options.triggerValue = 1
      · exact hinv.later (later_resumePausedMacro hinv.trees r.options expired)
          (hinv.not_released (hlast htrigger))
      · have hsame : (resumePausedMacro s'.macroState r.options expired).2 = s'.macroState := by
          rw [resumePausedMacro, if_pos htrigger]
        rw [hsame]
        exact hinv
    split
    · exact hnext.remove (Or.inr rfl)
    · split
      · rename_i hload
        refine hnext.setPhase nofun (fun _ => hlast ?_) nofun
        simp only [Bool.and_eq_true, decide_eq_true_eq] at hload
        exact hload.1.1.1.1
      · exact hnext.playMacro hlast r.options.eventSource expired

/-- The lifecycle an instance looks up is that of a root of its trigger. -/
theorem root_of_available {m : MacroRuntimeState} (h : Trees m) {p : ℕ} {above : InstanceMeta}
    (habove : m.instanceMeta.get? p = some above) (havailable : (sourceLifecycle m p).1 = true) :
    isSource above.source = true ∧ ∃ r info, m.instanceMeta.get? r = some info ∧
      info.parentInstanceId = none ∧ info.source = above.source ∧
      info.sourceLifecycleActive = (sourceLifecycle m p).2 := by
  simp only [sourceLifecycle, habove] at havailable ⊢
  cases hroot : m.instanceMeta.get? above.rootInstanceId with
  | none =>
    rw [hroot] at havailable
    cases havailable
  | some info =>
    rw [hroot] at havailable
    obtain ⟨hparent, hsource⟩ := h.available _ info hroot havailable
    have hsame := h.root p above info habove hroot
    exact ⟨hsame ▸ hsource, above.rootInstanceId, info, hroot, hparent, hsame, rfl⟩

/-- A child of a released trigger is not a hold instance, or starts paused. -/
theorem Inv.child (h : Inv none s) {parent : ℕ} (halive : parent ∈ s.macroState.alive)
    (hdying : parent ∉ s.macroState.dying) (options : MacroPlaybackOptions) :
    Inv none { s with macroState := startChildMacro s.macroState options parent } := by
  obtain ⟨above, habove⟩ := Option.ne_none_iff_exists'.mp fun hnone =>
    hdying ((h.trees.known parent halive).2.1 hnone)
  unfold startChildMacro
  simp only [habove]
  generalize (if normalizeLoopMode options.loopMode = .toggle then LoopMode.none
    else normalizeLoopMode options.loopMode) = first
  split
  · exact h
  · rename_i hstart
    generalize hmode : (if first = .hold ∧ (sourceLifecycle s.macroState parent).1 = false then
      LoopMode.none else first) = mode
    have hhold : mode = .hold → first = .hold ∧
        (sourceLifecycle s.macroState parent).1 = true := by
      intro hm
      rw [hm] at hmode
      split at hmode
      · cases hmode
      · rename_i hnot
        exact ⟨hmode, Bool.eq_true_of_not_eq_false fun ha => hnot ⟨hmode, ha⟩⟩
    split
    · exact h
    · refine ⟨?_, fun source => ?_, fun source n hlast => ?_⟩
      · refine h.trees.start options mode above.source (some parent) ?_ fun hm => ⟨?_, ?_⟩
        · intro p hp
          cases hp
          exact ⟨above, habove, rfl⟩
        · exact (root_of_available h.trees habove (hhold hm).2).1
        · intro p hp
          cases hp
          exact (hhold hm).2
      · refine (h.queues source).dying_mono fun i hi => ?_
        change i ∈ (startMacroInstance s.macroState options mode above.source (some parent)).dying
        rw [startMacroInstance_eq]
        exact hi
      · have hended := h.ended source n hlast
        refine hended.start options mode above.source (some parent) fun heq =>
          ⟨by simp, fun hm => ?_⟩
        obtain ⟨hfirst, havailable⟩ := hhold hm
        obtain ⟨-, r, info, hinfo, hroot, hsame, hactive⟩ :=
          root_of_available h.trees habove havailable
        have hreleased : (sourceLifecycle s.macroState parent).2 = false :=
          hactive.symm.trans (hended.roots r info hinfo hroot (hsame.trans heq))
        have hraw : options.loopStopBehavior = "pause_run" := by
          by_contra hne
          exact hstart ⟨hfirst, havailable, hreleased, hne⟩
        have hbehavior : normalizeMacroLoopStopBehavior options.loopStopBehavior = .pauseRun := by
          rw [hraw]
          decide +kernel
        have hlifecycle := sourceLifecycle_allocate h.trees options mode above.source (some parent)
          fun p hp => by
            cases hp
            rw [habove]
            simp
        rw [Option.elim_some] at hlifecycle
        unfold startMacroInstance
        dsimp only
        rw [hlifecycle, if_pos ⟨hbehavior, by rw [hm]; simp, havailable⟩, hreleased,
          Dict.get?_insert_self]
        rfl

theorem Inv.step (h : Inv none s) {op : Op} (hstep : step s op = some t) : Inv none t := by
  have hany : ∀ source n, s.lastHandled.get? source = some (n, (0 : Int)) → True :=
    fun _ _ _ => trivial
  cases op with
  | arrive options =>
    cases hstep
    refine ⟨h.trees, fun source => ?_, h.ended⟩
    change InOrder source (s.arrived + 1) (s.lastHandled.get? source) s.macroState.dying none
      (queueOf (s.setQueue options.source _) source)
    rw [queueOf_setQueue]
    have hq := h.queues source
    split
    · rename_i heq
      rw [heq] at hq ⊢
      exact hq.arrive options rfl
    · refine { hq with arrivals := fun r hr => (hq.arrivals r hr).trans (Nat.lt_succ_self _)
                       handled := fun n v hlast => ?_ }
      obtain ⟨hs, hn, hall⟩ := hq.handled n v hlast
      exact ⟨hs, hn.trans (Nat.lt_succ_self _), hall⟩
  | serve source serial expired =>
    simp only [Playback.step] at hstep
    split at hstep
    · rename_i serial' options hr
      cases hstep
      obtain ⟨hmem, heq⟩ := requestOf_mem hr
      have hsource := (h.queues source).sources _ hmem
      have henter := h.enter hr
      rw [← heq, ← hsource] at henter
      exact Inv.serve henter expired
    · cases hstep
  | loaded source serial events expired =>
    simp only [Playback.step] at hstep
    split at hstep
    · rename_i serial' options hr
      obtain ⟨hmem, heq⟩ := requestOf_mem hr
      have hsource := (h.queues source).sources _ hmem
      have henter := h.enter hr
      have hlast := (h.queues source).loading
      rw [← heq, ← hsource] at henter
      cases heq
      cases hsource
      split at hstep
      · cases hstep
        exact henter.remove (Or.inr rfl)
      · split at hstep
        · cases hstep
          exact henter.remove (Or.inr rfl)
        · cases hstep
          exact Inv.playMacro henter (fun _ hs => hlast hs _ hmem rfl (Option.some_ne_none _).symm)
            _ expired
    · cases hstep
  | stopped source serial =>
    simp only [Playback.step] at hstep
    split at hstep
    · rename_i serial' options ids hr
      obtain ⟨hmem, heq⟩ := requestOf_mem hr
      cases hstep
      have hids := (h.queues source).stopping _ hmem ids rfl
      have hforget : Later (fun _ => True) s.macroState
          (((List.range (s.macroState.instanceSeq + 1)).filter (· ∈ ids)).foldl forgetInstance
            s.macroState) := by
        refine Later.foldl (I := fun m => Trees m ∧ ∀ i ∈ ids, i ∈ m.dying)
          (fun m m' hm hl => ⟨hm.1.later hl, fun i hi => hl.dying i (hm.2 i hi)⟩)
          (fun m hm i hi => later_forget hm.1 fun _ => hm.2 i ?_) ⟨h.trees, hids⟩
        simpa using (List.mem_filter.mp hi).2
      exact (h.later hforget hany).remove (Or.inl rfl)
    · cases hstep
  | drop source serial =>
    cases hstep
    exact h.remove (Or.inl rfl)
  | child parent options =>
    obtain ⟨⟨halive, hdying⟩, rfl⟩ := enabled_eq_some.mp hstep
    exact h.child halive hdying options
  | iterate i =>
    simp only [Playback.step] at hstep
    split at hstep
    · split at hstep
      · cases hstep
      · split at hstep
        · cases hstep
          exact h
        · cases hstep
    · cases hstep
  | ends i =>
    obtain ⟨-, rfl⟩ := enabled_eq_some.mp hstep
    have hend := later_endTask (P := fun _ => True) s.macroState i
    refine h.later (hend.trans (later_forget (h.trees.later hend) fun hi => ?_)) hany
    exact absurd hi (Finset.notMem_erase i _)
  | vanish i =>
    obtain ⟨-, rfl⟩ := enabled_eq_some.mp hstep
    exact h.later (later_endTask (P := fun _ => True) s.macroState i) hany
  | expire i =>
    obtain ⟨-, rfl⟩ := enabled_eq_some.mp hstep
    exact h.later (later_expirePausedInstance (P := fun _ => True) h.trees i) hany
  | cancel ids =>
    obtain ⟨-, rfl⟩ := enabled_eq_some.mp hstep
    exact h.later (later_markCancelled (P := fun _ => True) s.macroState _) hany
  | forget ids =>
    obtain ⟨hids, rfl⟩ := enabled_eq_some.mp hstep
    refine h.later (P := fun _ => True) (Later.foldl (I := fun m => Trees m ∧ ∀ i ∈ ids, i ∈ m.dying)
      (fun m m' hm hl => ⟨hm.1.later hl, fun i hi => hl.dying i (hm.2 i hi)⟩)
      (fun m hm i hi => later_forget hm.1 fun _ => hm.2 i hi) ⟨h.trees, hids⟩) hany
  | setOutputs outputs
  | setInputPaused inputPaused =>
    cases hstep
    exact ⟨h.trees, h.queues, h.ended⟩

end Steps

/-- Once the release of a trigger is handled no older request of the trigger is left, and each hold
instance that carries the trigger is cancelled, paused, which it is when it stops by pausing, or on
its last iteration. A child carries the trigger of its parent. -/
theorem hold_macros_end_with_their_trigger {ops : List Op} {s : State}
    (hrun : run step initial ops = some s) {source : Key} {serial : ℕ}
    (hreleased : s.lastHandled.get? source = some (serial, 0)) :
    (∀ r ∈ queueOf s source, serial ≤ r.serial) ∧
    (∀ i ∈ s.macroState.alive, i ∈ s.macroState.dying ∨
      ∃ info, s.macroState.instanceMeta.get? i = some info ∧
        (info.loopMode = .hold → info.source = source →
          (s.macroState.pauses.get? i = some true ∨
            (info.loopStopBehavior ≠ .pauseRun ∧ info.loopActive = false)) ∧
          step s (.iterate i) = none)) ∧
    ∀ i info p above, s.macroState.instanceMeta.get? i = some info →
      info.parentInstanceId = some p → s.macroState.instanceMeta.get? p = some above →
        above.source = info.source := by
  have hinv : Inv none s := run_invariant (fun _ _ _ h hstep => h.step hstep) inv_initial hrun
  refine ⟨fun r hr => (((hinv.queues source).handled serial 0 hreleased).2.2 r hr).1,
    fun i hi => ?_, hinv.trees.parent⟩
  by_cases hdying : i ∈ s.macroState.dying
  · exact Or.inl hdying
  · obtain ⟨info, hinfo⟩ := Option.ne_none_iff_exists'.mp fun hnone =>
      hdying ((hinv.trees.known i hi).2.1 hnone)
    refine Or.inr ⟨info, hinfo, fun hmode hsource => ?_⟩
    have hended := (hinv.ended source serial hreleased).hold i info hi hdying hinfo hmode hsource
    constructor
    · refine hended.imp_right fun ⟨hnone, hactive⟩ => ⟨fun hstop => ?_, hactive⟩
      exact (hinv.trees.hold i info hinfo hmode).2 hstop hnone
    · simp only [Playback.step, hi, hdying, hinfo, shouldContinue, hmode]
      rcases hended with hpaused | ⟨-, hactive⟩
      · simp [hpaused]
      · simp [hactive]

/- A hold macro is pressed, and released while it is still loading. -/
def pressAndReleaseRun : List Op :=
  [.arrive { macroName := "m", loopMode := "hold", source := ("keyboard", "KEY_A") },
    .serve ("keyboard", "KEY_A") 0 ∅,
    .arrive { macroName := "m", loopMode := "hold", source := ("keyboard", "KEY_A"),
              triggerValue := 0 },
    .loaded ("keyboard", "KEY_A") 0 (some 3) ∅, .serve ("keyboard", "KEY_A") 1 ∅]

theorem hold_macros_end_with_their_trigger_loading : ∃ s,
    run step initial pressAndReleaseRun = some s ∧ s.macroState.alive = {1} ∧
    ∀ i ∈ s.macroState.alive, i ∈ s.macroState.dying ∨
      ∃ info, s.macroState.instanceMeta.get? i = some info ∧
        (info.loopMode = .hold → info.source = ("keyboard", "KEY_A") →
          (s.macroState.pauses.get? i = some true ∨
            (info.loopStopBehavior ≠ .pauseRun ∧ info.loopActive = false)) ∧
          step s (.iterate i) = none) := by
  have hend : (run step initial pressAndReleaseRun).map
      (fun s => (s.lastHandled.get? ("keyboard", "KEY_A"), s.macroState.alive)) =
        some (some (1, 0), {1}) := by decide +kernel
  obtain ⟨s, hs, hfields⟩ := Option.map_eq_some_iff.mp hend
  rw [Prod.mk.injEq] at hfields
  exact ⟨s, hs, hfields.2, (hold_macros_end_with_their_trigger hs hfields.1).2.1⟩

/-- In every run the instances form trees: the children of an instance name it as their parent, all
of a tree carry the trigger of its root, only a root with a trigger has a source lifecycle, and a
live instance has metadata until it is cancelled. -/
theorem instances_form_trees {ops : List Op} {s : State} (hrun : run step initial ops = some s) :
    Trees s.macroState := by
  have hinv : Inv none s := run_invariant (fun _ _ _ h hstep => h.step hstep) inv_initial hrun
  exact hinv.trees

/- The macro starts another one before it is released. -/
theorem instances_form_trees_child : ∃ s,
    run step initial (pressAndReleaseRun.take 4 ++ [.child 1 { macroName := "n" }]) = some s ∧
      2 ∈ s.macroState.instanceChildren.getD 1 ∅ ∧ Trees s.macroState := by
  have hend : (run step initial (pressAndReleaseRun.take 4 ++
      [.child 1 { macroName := "n" }])).any
        (fun s => decide (2 ∈ s.macroState.instanceChildren.getD 1 ∅)) = true := by decide +kernel
  obtain ⟨s, hs, hchild⟩ := (Option.any_eq_true _ _).mp hend
  exact ⟨s, hs, of_decide_eq_true hchild, instances_form_trees hs⟩

end Keymasq.Macros.Triggers
