import Keymasq.Macros.Triggers

/-!
# Hold macros while their trigger is held

A press of a hold macro is answered by an instance that it starts, by runs that it
resumes or by an instance that runs already. The answering instances loop until the
trigger is released, unless one of them was on its last iteration when it was found.
-/

namespace Keymasq.Macros.Looping
open Foundation Foundation.Transition Playback Triggers

/-! ## Looping instances -/

/-- A hold instance of a trigger that is neither cancelled nor on its last iteration. -/
def HoldsLoop (m : MacroRuntimeState) (source : Key) (i : ℕ) : Prop :=
  i ∈ m.alive ∧ i ∉ m.dying ∧
    ((m.instanceMeta.get? i).any fun info =>
      info.source = source && info.loopMode = .hold && info.loopActive) = true

def Loops (m : MacroRuntimeState) (source : Key) (i : ℕ) : Prop :=
  HoldsLoop m source i ∧ m.pauses.get? i ≠ some true

instance decidableHoldsLoop (m : MacroRuntimeState) (source : Key) (i : ℕ) :
    Decidable (HoldsLoop m source i) :=
  inferInstanceAs (Decidable (_ ∧ _ ∧ _))

instance decidableLoops (m : MacroRuntimeState) (source : Key) (i : ℕ) :
    Decidable (Loops m source i) :=
  inferInstanceAs (Decidable (_ ∧ _))

/-- An unpaused instance of a trigger whose loop is active. -/
def Active (m : MacroRuntimeState) (source : Key) (i : ℕ) : Prop :=
  i ∈ m.alive ∧ m.pauses.get? i ≠ some true ∧ ∃ info, m.instanceMeta.get? i = some info ∧
    info.source = source ∧ info.loopActive = true

def loopingIds (m : MacroRuntimeState) (source : Key) : List ℕ :=
  (m.instanceMeta.filter fun i _ => Loops m source i).keys

section Instances

variable {m m' m'' : MacroRuntimeState} {source : Key} {i : ℕ} {ids : List ℕ}
  {options : MacroPlaybackOptions}

theorem holdsLoop_iff : HoldsLoop m source i ↔ i ∈ m.alive ∧ i ∉ m.dying ∧
    ∃ info, m.instanceMeta.get? i = some info ∧ info.source = source ∧ info.loopMode = .hold ∧
      info.loopActive = true := by
  unfold HoldsLoop
  rw [Option.any_eq_true]
  simp only [Bool.and_eq_true, decide_eq_true_eq, and_assoc]

theorem Loops.active (h : Loops m source i) : Active m source i := by
  obtain ⟨hin, -, info, hinfo, hsource, -, hactive⟩ := holdsLoop_iff.mp h.1
  exact ⟨hin, h.2, info, hinfo, hsource, hactive⟩

theorem mem_loopingIds : i ∈ loopingIds m source ↔ Loops m source i := by
  unfold loopingIds
  rw [← Dict.contains_iff, Dict.contains, Option.isSome_iff_exists]
  simp only [Dict.get?_filter_eq_some, decide_eq_true_eq]
  constructor
  · rintro ⟨info, -, hloops⟩
    exact hloops
  · intro hloops
    obtain ⟨-, -, info, hinfo, -⟩ := holdsLoop_iff.mp hloops.1
    exact ⟨info, hinfo, hloops⟩

/-- Cancellations and pauses are of instances that were started. -/
structure Bounded (m : MacroRuntimeState) : Prop where
  dying : ∀ i ∈ m.dying, i ≤ m.instanceSeq
  pauses : ∀ i, m.pauses.get? i ≠ none → i ≤ m.instanceSeq

/-- The looping instances of a trigger go on, or are cancelled. -/
structure Lasting (source : Key) (m m' : MacroRuntimeState) : Prop where
  dying : m.dying ⊆ m'.dying
  bounded : Bounded m → Bounded m'
  looping : ∀ i, Loops m source i → Loops m' source i ∨ i ∈ m'.dying

theorem Lasting.refl (source : Key) (m : MacroRuntimeState) : Lasting source m m :=
  ⟨Finset.Subset.refl _, id, fun _ => Or.inl⟩

theorem Lasting.trans (h : Lasting source m m') (h' : Lasting source m' m'') :
    Lasting source m m'' where
  dying := h.dying.trans h'.dying
  bounded := fun hm => h'.bounded (h.bounded hm)
  looping := by
    intro i hi
    obtain hloops | hdying := h.looping i hi
    · exact h'.looping i hloops
    · exact .inr (h'.dying hdying)

theorem Lasting.foldl {α : Type} {f : MacroRuntimeState → α → MacroRuntimeState} {as : List α}
    {I : MacroRuntimeState → Prop} (hI : ∀ m, I m → ∀ a ∈ as, I (f m a))
    (hf : ∀ m, I m → ∀ a ∈ as, Lasting source m (f m a)) (hm : I m) :
    Lasting source m (as.foldl f m) := by
  induction as generalizing m with
  | nil => exact Lasting.refl source m
  | cons a as ih =>
    have hfirst := hf m hm a List.mem_cons_self
    exact hfirst.trans (ih (fun m hm b hb => hI m hm b (List.mem_cons_of_mem a hb))
      (fun m hm b hb => hf m hm b (List.mem_cons_of_mem a hb)) (hI m hm a List.mem_cons_self))

/-- A step that leaves the tasks, and the flags and pauses of the looping instances. -/
theorem lasting_of_frame (hbounded : Bounded m → Bounded m') (halive : m'.alive = m.alive)
    (hdying : m'.dying = m.dying)
    (hinfo : ∀ i info, m.instanceMeta.get? i = some info → info.source = source →
      info.loopMode = .hold → info.loopActive = true → m.pauses.get? i ≠ some true →
      m'.pauses.get? i ≠ some true ∧ ∃ info', m'.instanceMeta.get? i = some info' ∧
        info'.source = source ∧ info'.loopMode = .hold ∧ info'.loopActive = true) :
    Lasting source m m' where
  dying := by rw [hdying]
  bounded := hbounded
  looping := by
    rintro i ⟨hholds, hpause⟩
    obtain ⟨hin, hnot, info, hget, hsource, hmode, hactive⟩ := holdsLoop_iff.mp hholds
    obtain ⟨hpause', hinfo'⟩ := hinfo i info hget hsource hmode hactive hpause
    exact .inl ⟨holdsLoop_iff.mpr ⟨halive ▸ hin, hdying ▸ hnot, hinfo'⟩, hpause'⟩

/-! ## What the steps leave looping -/

theorem lasting_markSourceReleased (m : MacroRuntimeState) (source released : Key) :
    Lasting source m (markSourceReleased m released) := by
  refine lasting_of_frame (fun h => ⟨h.dying, h.pauses⟩) rfl rfl
    fun i info hget hsource hmode hactive hpause => ⟨hpause, ?_⟩
  have hget' : (markSourceReleased m released).instanceMeta.get? i = _ := Dict.get?_mapVal _ _ i
  rw [hget, Option.map_some] at hget'
  refine ⟨_, hget', ?_⟩
  split
  · exact ⟨hsource, hmode, hactive⟩
  · exact ⟨hsource, hmode, hactive⟩

/-- Instances of another trigger, or that are no hold instances, are paused and stopped. -/
theorem lasting_markLoopStopping
    (hids : ∀ i ∈ ids, ∀ info,
    m.instanceMeta.get? i = some info → info.source = source → info.loopMode ≠ .hold) :
    Lasting source m (markLoopStopping m ids) := by
  refine lasting_of_frame (fun h => ⟨h.dying, h.pauses⟩) rfl rfl
    fun i info hget hsource hmode hactive hpause => ⟨hpause, ?_⟩
  have hget' : (markLoopStopping m ids).instanceMeta.get? i = _ := Dict.get?_mapVal _ _ i
  rw [hget, Option.map_some, if_neg fun hin => hids i hin info hget hsource hmode] at hget'
  exact ⟨info, hget', hsource, hmode, hactive⟩

theorem bounded_foldl_pauseInstance (ids : List ℕ) (h : Bounded m) :
    Bounded (ids.foldl pauseInstance m) := by
  rw [foldl_pauseInstance_eq]
  refine ⟨h.dying, fun i hi => h.pauses i fun hnone => hi ?_⟩
  change (ids.foldl pauseInstance m).pauses.get? i = none
  rw [foldl_pauseInstance, if_neg fun hpaused => hpaused.2 hnone]
  exact hnone

theorem lasting_foldl_pauseInstance
    (hids : ∀ i ∈ ids, ∀ info, m.instanceMeta.get? i = some info → info.source ≠ source) :
    Lasting source m (ids.foldl pauseInstance m) := by
  have heq := foldl_pauseInstance_eq ids m
  refine lasting_of_frame (bounded_foldl_pauseInstance ids) (by rw [heq]) (by rw [heq])
    fun i info hget hsource hmode hactive hpause => ⟨?_, info, by rw [heq]; exact hget, hsource,
      hmode, hactive⟩
  rw [foldl_pauseInstance, if_neg fun hin => hids i hin.1 info hget hsource]
  exact hpause

theorem lasting_markCancelled {ids : Finset ℕ} (hids : ∀ i ∈ ids, i ≤ m.instanceSeq) :
    Lasting source m (markCancelled m ids) where
  dying := Finset.subset_union_left
  bounded := fun h => ⟨fun i hi => (Finset.mem_union.mp hi).elim (h.dying i) (hids i), h.pauses⟩
  looping := by
    rintro i ⟨hholds, hpause⟩
    obtain ⟨hin, hnot, hinfo⟩ := holdsLoop_iff.mp hholds
    by_cases hcancelled : i ∈ ids
    · exact .inr (Finset.mem_union_right _ hcancelled)
    · refine .inl ⟨holdsLoop_iff.mpr ⟨hin, fun hdying => ?_, hinfo⟩, hpause⟩
      exact (Finset.mem_union.mp hdying).elim hnot hcancelled

/-- Instances that are forgotten are over or cancelled. -/
theorem lasting_forgetInstance (hi : i ∈ m.alive → i ∈ m.dying) :
    Lasting source m (forgetInstance m i) where
  dying := Finset.Subset.refl _
  bounded := by
    refine fun h => ⟨h.dying, fun j hj => h.pauses j fun hnone => hj ?_⟩
    change (m.pauses.erase i).get? j = none
    rw [Dict.get?_erase, hnone, ite_self]
  looping := by
    rintro j ⟨hholds, hpause⟩
    obtain ⟨hin, hnot, info, hget, hinfo⟩ := holdsLoop_iff.mp hholds
    have hne : j ≠ i := by
      rintro rfl
      exact hnot (hi hin)
    refine .inl ⟨holdsLoop_iff.mpr ⟨hin, hnot, info, ?_, hinfo⟩, ?_⟩
    · exact (Dict.get?_erase_of_ne _ hne).trans hget
    · intro hpaused
      exact hpause ((Dict.get?_erase_of_ne _ hne).symm.trans hpaused)

theorem lasting_forgetDone (m : MacroRuntimeState) (source : Key) (i : ℕ) :
    Lasting source m (forgetDone m i) := by
  unfold forgetDone
  split
  · exact Lasting.refl source m
  · rename_i hdone
    exact lasting_forgetInstance fun hin => absurd hin hdone

theorem le_of_mem_descendants (h : Trees m) {ids : Finset ℕ} (hids : ∀ i ∈ ids, i ≤ m.instanceSeq) :
    ∀ i ∈ descendantInstanceIds m ids, i ≤ m.instanceSeq := by
  refine descendant_of (fun p _ i hi => ?_) hids
  obtain ⟨info, hinfo, -⟩ := h.children p i hi
  exact (h.issued i info hinfo).1

theorem lasting_expirePausedInstance (h : Trees m) (source : Key) (i : ℕ) :
    Lasting source m (expirePausedInstance m i) := by
  unfold expirePausedInstance
  split
  · exact Lasting.refl source m
  · rename_i hlive
    obtain ⟨-, hcontains⟩ := not_or.mp hlive
    obtain ⟨info, hinfo⟩ := Option.isSome_iff_exists.mp (Bool.eq_true_of_not_eq_false hcontains)
    refine (lasting_markCancelled (le_of_mem_descendants h fun j hj => ?_)).trans
      (Lasting.foldl (I := fun _ => True) (fun _ _ _ _ => trivial)
        (fun m _ j _ => lasting_forgetDone m source j) trivial)
    rw [Finset.mem_singleton.mp hj]
    exact (h.issued i info hinfo).1

theorem lasting_stopLoopInstances (h : Trees m)
    (hids : ∀ i ∈ ids, ∃ info, m.instanceMeta.get? i = some info ∧
      (info.source = source → info.loopMode ≠ .hold)) :
    Lasting source m (stopLoopInstances m ids).1 := by
  have hmark : Lasting source m (markLoopStopping m
      ((ids.filter fun i => m.pauses.get? i = none).filter fun i => !cancelsRun m i)) := by
    refine lasting_markLoopStopping fun i hi info hinfo hsource => ?_
    obtain ⟨info', hinfo', hother⟩ := hids i (List.mem_of_mem_filter (List.mem_of_mem_filter hi))
    rw [hinfo] at hinfo'
    cases hinfo'
    exact hother hsource
  refine hmark.trans (lasting_markCancelled fun i hi => ?_)
  refine le_of_mem_descendants (h.later (later_markLoopStopping (P := fun _ => True) m _)) ?_ i hi
  intro j hj
  obtain ⟨info, hinfo, -⟩ := hids j
    (List.mem_of_mem_filter (List.mem_of_mem_filter (List.mem_toFinset.mp hj)))
  exact (h.issued j info hinfo).1

/-- The release of another trigger. -/
theorem lasting_releaseTrigger (h : Trees m) {released : Key} (hne : released ≠ source) :
    Lasting source m (releaseTrigger m released).1 := by
  have hmark : Lasting source m
      (if isSource released then markSourceReleased m released else m) := by
    split
    · exact lasting_markSourceReleased m source released
    · exact Lasting.refl source m
  have htrees : Trees (if isSource released then markSourceReleased m released else m) := by
    split
    · exact h.later (later_markSourceReleased (P := fun _ => True) m released)
    · exact h
  refine hmark.trans ?_
  unfold releaseTrigger
  dsimp only
  generalize (if isSource released then markSourceReleased m released else m) = m₁ at htrees ⊢
  refine (lasting_foldl_pauseInstance fun i hi info hinfo hsource => ?_).trans
    (lasting_stopLoopInstances (htrees.later (Later.foldl (P := fun _ => True)
      (I := fun _ => True) (fun _ _ _ _ => trivial) (fun m _ j _ => later_pauseInstance m j)
      trivial)) fun i hi => ?_)
  · obtain ⟨info', hinfo', -, -, -, hreleased⟩ := mem_findMatching.mp hi
    rw [hinfo] at hinfo'
    cases hinfo'
    exact hne (hreleased.symm.trans hsource)
  · obtain ⟨info, hinfo, -, -, -, hreleased⟩ := mem_findMatching.mp hi
    exact ⟨info, hinfo, fun hsource => absurd (hreleased.symm.trans hsource) hne⟩

theorem lasting_resumeInstance (m : MacroRuntimeState) (source : Key) (i : ℕ) :
    Lasting source m (resumeInstance m i) := by
  unfold resumeInstance
  split
  · exact Lasting.refl source m
  · split
    · exact Lasting.refl source m
    · rename_i hpause
      refine lasting_of_frame (fun h => ⟨h.dying, fun j hj => ?_⟩) rfl rfl
        fun j info hget hsource hmode hactive hrunning =>
          ⟨?_, info, hget, hsource, hmode, hactive⟩
      · by_cases hij : j = i
        · rw [hij]
          exact h.pauses i hpause
        · exact h.pauses j fun hnone => hj ((Dict.get?_insert_of_ne _ _ hij).trans hnone)
      · change (m.pauses.insert i false).get? j ≠ some true
        rw [Dict.get?_insert]
        split
        · simp
        · exact hrunning

theorem lasting_resumeRoot (m : MacroRuntimeState) (source : Key) (rootId : ℕ) :
    Lasting source m (resumeRoot m rootId) := by
  unfold resumeRoot
  split
  · exact Lasting.refl source m
  · rename_i root hroot
    refine Lasting.trans ?_ (Lasting.foldl (I := fun _ => True) (fun _ _ _ _ => trivial)
      (fun m _ j _ => lasting_resumeInstance m source j) trivial)
    refine lasting_of_frame (fun h => ⟨h.dying, h.pauses⟩) rfl rfl
      fun j info hget hsource hmode hactive hpause => ⟨hpause, ?_⟩
    change ∃ info', (m.instanceMeta.insert rootId _).get? j = some info' ∧ _
    rw [Dict.get?_insert]
    split
    · rename_i hj
      rw [hj, hroot] at hget
      cases hget
      exact ⟨_, rfl, hsource, hmode, hactive⟩
    · exact ⟨info, hget, hsource, hmode, hactive⟩

/-! ## Presses of hold macros -/

/- The runs of the macro that a press resumes, and the state once the paused
instances past their timeout are discarded. -/
def resumableRoots (m : MacroRuntimeState) (options : MacroPlaybackOptions)
    (expired : Finset ℕ) : List ℕ × MacroRuntimeState :=
  let (roots, m) := (findMatchingMacroInstances m none options.source).foldl
    (resumableRoot options.macroName expired) ([], m)
  (roots.filter (· ∉ m.cancelInstanceIds), m)

/-- An unpaused hold instance of the trigger answers a press of a hold macro. -/
def alreadyRunning (m : MacroRuntimeState) (source : Key) : Bool :=
  (findMatchingMacroInstances m (some .hold) source).any fun i => m.pauses.get? i ≠ some true

/- A press of a hold macro is answered by runs that it resumes, by an instance
that is running already or by a new one. -/
def accepts (m : MacroRuntimeState) (options : MacroPlaybackOptions) (events : Option ℕ)
    (expired : Finset ℕ) : Bool :=
  let (resumed, m) := resumePausedMacro m options expired
  resumed || alreadyRunning m options.source || events.getD options.macroEvents ≠ 0

/- A press that resumes runs, or is answered by an instance that is running already,
finds a hold instance of its trigger that is not on its last iteration: one that
is not paused, or one in a run that it resumes. -/
def FindsLoop (m : MacroRuntimeState) (options : MacroPlaybackOptions) (expired : Finset ℕ) :
    Prop :=
  let (roots, m) := resumableRoots m options expired
  roots ≠ [] ∨ alreadyRunning m options.source = true →
    ∃ i ∈ m.instanceMeta.keys, HoldsLoop m options.source i ∧
      (m.pauses.get? i ≠ some true ∨
        ∃ root ∈ roots, m.instanceMeta.contains root = true ∧
          i ∈ descendantInstanceIds m {root})

instance decidableFindsLoop (m : MacroRuntimeState) (options : MacroPlaybackOptions)
    (expired : Finset ℕ) : Decidable (FindsLoop m options expired) :=
  inferInstanceAs (Decidable (_ ∨ _ → _))

theorem resumePausedMacro_eq (m : MacroRuntimeState) (hpress : options.triggerValue = 1)
    (expired : Finset ℕ) :
    resumePausedMacro m options expired =
      (decide ((resumableRoots m options expired).1 ≠ []),
        (resumableRoots m options expired).1.foldl resumeRoot
          (resumableRoots m options expired).2) := by
  unfold resumePausedMacro
  rw [if_neg (not_not_intro hpress)]
  rfl

theorem lasting_resumableRoots (h : Trees m) (source : Key) (options : MacroPlaybackOptions)
    (expired : Finset ℕ) : Lasting source m (resumableRoots m options expired).2 := by
  unfold resumableRoots
  dsimp only
  generalize findMatchingMacroInstances m none options.source = ids
  generalize ([] : List ℕ) = roots
  induction ids generalizing m roots with
  | nil => exact Lasting.refl source m
  | cons i ids ih =>
    rw [List.foldl_cons]
    unfold resumableRoot
    dsimp only
    split
    · exact ih h roots
    · split
      · exact ih h roots
      · split
        · exact (lasting_expirePausedInstance h source i).trans
            (ih (h.later (later_expirePausedInstance (P := fun _ => True) h i)) roots)
        · repeat' split
          all_goals exact ih h _

theorem lasting_resumePausedMacro (h : Trees m) (source : Key) (options : MacroPlaybackOptions)
    (expired : Finset ℕ) : Lasting source m (resumePausedMacro m options expired).2 := by
  by_cases hpress : options.triggerValue = 1
  · rw [resumePausedMacro_eq m hpress]
    exact (lasting_resumableRoots h source options expired).trans
      (Lasting.foldl (I := fun _ => True) (fun _ _ _ _ => trivial)
        (fun m _ root _ => lasting_resumeRoot m source root) trivial)
  · rw [resumePausedMacro, if_pos hpress]
    exact Lasting.refl source m

theorem foldl_resumeInstance_eq (ids : List ℕ) (m : MacroRuntimeState) :
    ids.foldl resumeInstance m = { m with pauses := (ids.foldl resumeInstance m).pauses } := by
  induction ids generalizing m with
  | nil => rfl
  | cons j ids ih =>
    have hstep : resumeInstance m j = { m with pauses := (resumeInstance m j).pauses } := by
      unfold resumeInstance
      repeat' split
      all_goals rfl
    rw [List.foldl_cons, ih, hstep]

/-- A resumed instance is not paused. -/
theorem foldl_resumeInstance_running (hcancel : i ∉ m.cancelInstanceIds)
    (hrunning : i ∈ ids ∨ m.pauses.get? i ≠ some true) :
    (ids.foldl resumeInstance m).pauses.get? i ≠ some true := by
  induction ids generalizing m with
  | nil => exact hrunning.resolve_left List.not_mem_nil
  | cons j ids ih =>
    rw [List.foldl_cons]
    have hcancel' : (resumeInstance m j).cancelInstanceIds = m.cancelInstanceIds := by
      rw [show resumeInstance m j = [j].foldl resumeInstance m from rfl, foldl_resumeInstance_eq]
    refine ih (by rw [hcancel']; exact hcancel) ?_
    by_cases hrest : i ∈ ids
    · exact .inl hrest
    · refine .inr ?_
      unfold resumeInstance
      by_cases hij : i = j
      · rw [← hij, if_neg hcancel]
        split
        · rename_i hnone
          rw [hnone]
          simp
        · rw [Dict.get?_insert_self]
          simp
      · have hpause : m.pauses.get? i ≠ some true :=
          hrunning.resolve_left fun hin => (List.mem_cons.mp hin).elim hij hrest
        repeat' split
        · exact hpause
        · exact hpause
        · rw [Dict.get?_insert_of_ne _ _ hij]
          exact hpause

/-- Resuming a run touches the pauses and the lifecycle of its root alone. -/
theorem resumeRoot_frame (m : MacroRuntimeState) (rootId : ℕ) :
    (resumeRoot m rootId).instanceSeq = m.instanceSeq ∧
      (resumeRoot m rootId).instanceChildren = m.instanceChildren ∧
      (resumeRoot m rootId).cancelInstanceIds = m.cancelInstanceIds ∧
      (resumeRoot m rootId).dying = m.dying ∧
      ∀ j, (resumeRoot m rootId).instanceMeta.contains j = m.instanceMeta.contains j := by
  unfold resumeRoot
  split
  · exact ⟨rfl, rfl, rfl, rfl, fun _ => rfl⟩
  · rename_i info hinfo
    dsimp only
    rw [foldl_resumeInstance_eq]
    refine ⟨rfl, rfl, rfl, rfl, fun j => ?_⟩
    by_cases hj : j = rootId
    · simp [Dict.contains, hj, hinfo]
    · simp [Dict.contains, Dict.get?_insert_of_ne _ _ hj]

theorem holdsLoop_resumeRoot (h : HoldsLoop m source i) (rootId : ℕ) :
    HoldsLoop (resumeRoot m rootId) source i := by
  obtain ⟨hin, hnot, info, hget, hinfo⟩ := holdsLoop_iff.mp h
  unfold resumeRoot
  split
  · exact h
  · rename_i root hroot
    dsimp only
    rw [foldl_resumeInstance_eq]
    refine holdsLoop_iff.mpr ⟨hin, hnot, ?_⟩
    change ∃ info', (m.instanceMeta.insert rootId _).get? i = some info' ∧ _
    rw [Dict.get?_insert]
    split
    · rename_i hi
      rw [hi, hroot] at hget
      cases hget
      exact ⟨_, rfl, hinfo⟩
    · exact ⟨info, hget, hinfo⟩

theorem resumeRoot_running {rootId : ℕ} (hroot : m.instanceMeta.contains rootId = true)
    (hle : i ≤ m.instanceSeq) (hcancel : i ∉ m.cancelInstanceIds)
    (hin : i ∈ descendantInstanceIds m {rootId}) :
    (resumeRoot m rootId).pauses.get? i ≠ some true := by
  obtain ⟨info, hinfo⟩ := Option.isSome_iff_exists.mp hroot
  unfold resumeRoot
  rw [hinfo]
  refine foldl_resumeInstance_running hcancel (.inl (List.mem_filter.mpr ⟨?_, ?_⟩))
  · exact List.mem_range.mpr (Nat.lt_succ_of_le hle)
  · exact decide_eq_true hin

theorem loops_foldl_resumeRoot {roots : List ℕ} (h : Loops m source i) :
    Loops (roots.foldl resumeRoot m) source i := by
  induction roots generalizing m with
  | nil => exact h
  | cons root roots ih =>
    refine ih (((lasting_resumeRoot m source root).looping i h).resolve_right fun hdying => ?_)
    rw [(resumeRoot_frame m root).2.2.2.1] at hdying
    exact h.1.2.1 hdying

/-- A resumed run has its hold instance loop again. -/
theorem loops_of_resumed {roots : List ℕ} {rootId : ℕ} (hin : rootId ∈ roots)
    (hroot : m.instanceMeta.contains rootId = true) (hholds : HoldsLoop m source i)
    (hle : i ≤ m.instanceSeq) (hcancel : i ∉ m.cancelInstanceIds)
    (hdescendant : i ∈ descendantInstanceIds m {rootId}) :
    Loops (roots.foldl resumeRoot m) source i := by
  induction roots generalizing m with
  | nil => exact absurd hin List.not_mem_nil
  | cons root roots ih =>
    rw [List.foldl_cons]
    by_cases heq : rootId = root
    · rw [← heq]
      exact loops_foldl_resumeRoot
        ⟨holdsLoop_resumeRoot hholds rootId, resumeRoot_running hroot hle hcancel hdescendant⟩
    · obtain ⟨hseq, hchildren, hcancelled, -, hcontains⟩ := resumeRoot_frame m root
      refine ih ((List.mem_cons.mp hin).resolve_left heq) ?_ (holdsLoop_resumeRoot hholds root) ?_
        ?_ ?_
      · rw [hcontains]
        exact hroot
      · rw [hseq]
        exact hle
      · rw [hcancelled]
        exact hcancel
      · unfold descendantInstanceIds at hdescendant ⊢
        rw [hseq, hchildren]
        exact hdescendant

/-- A new instance leaves the others as they are. -/
theorem lasting_startMacroInstance (h : Trees m) (source : Key) (options : MacroPlaybackOptions)
    (mode : LoopMode) (key : Key) (parent : Option ℕ) :
    Lasting source m (startMacroInstance m options mode key parent) := by
  have heq := startMacroInstance_eq m options mode key parent
  have hdying : (startMacroInstance m options mode key parent).dying = m.dying := by
    rw [heq]
    rfl
  have hseq : (startMacroInstance m options mode key parent).instanceSeq = m.instanceSeq + 1 := by
    rw [heq]
    rfl
  refine ⟨by rw [hdying], fun hbounded => ⟨fun i hi => ?_, fun i hi => ?_⟩, ?_⟩
  · rw [hdying] at hi
    rw [hseq]
    exact (hbounded.dying i hi).trans (Nat.le_succ _)
  · rw [hseq]
    by_cases hnew : i = m.instanceSeq + 1
    · exact hnew.le
    · rw [pauses_startMacroInstance m options mode key parent hnew] at hi
      exact (hbounded.pauses i hi).trans (Nat.le_succ _)
  · rintro i ⟨hholds, hpause⟩
    obtain ⟨hin, hnot, info, hget, hinfo⟩ := holdsLoop_iff.mp hholds
    have hne : i ≠ m.instanceSeq + 1 := by
      have hle := (h.known i hin).1
      omega
    refine .inl ⟨holdsLoop_iff.mpr ⟨?_, hdying ▸ hnot, info, ?_, hinfo⟩, ?_⟩
    · rw [heq]
      exact Finset.mem_insert_of_mem hin
    · rw [heq]
      exact (Dict.get?_insert_of_ne _ _ hne).trans hget
    · rw [pauses_startMacroInstance m options mode key parent hne]
      exact hpause

theorem lasting_pressTrigger (h : Trees m) (source : Key) (options : MacroPlaybackOptions)
    (events : Option ℕ) (expired : Finset ℕ) :
    Lasting source m (pressTrigger m options events expired).1 := by
  have hresume := lasting_resumePausedMacro h source options expired
  have htrees := h.later (later_resumePausedMacro h options expired)
  unfold pressTrigger
  dsimp only
  split
  · exact hresume
  · split
    · refine hresume.trans (lasting_stopLoopInstances htrees fun i hi => ?_)
      obtain ⟨info, hinfo, -, -, hmode, -⟩ := mem_findMatching.mp (List.mem_of_mem_filter hi)
      refine ⟨info, hinfo, fun _ hhold => ?_⟩
      obtain hnone | htoggle := hmode
      · cases hnone
      · rw [hhold] at htoggle
        cases htoggle
    · generalize (if normalizeLoopMode options.loopMode = .hold ∧
        isSource options.source = false then LoopMode.none
        else normalizeLoopMode options.loopMode) = mode
      repeat' split
      · exact hresume
      · exact hresume
      · exact hresume.trans (lasting_startMacroInstance htrees source options mode _ none)

/-- A new hold instance loops. -/
theorem loops_startMacroInstance (h : Trees m) (hbounded : Bounded m)
    (options : MacroPlaybackOptions) (key : Key) :
    Loops (startMacroInstance m options .hold key none) key (m.instanceSeq + 1) := by
  have heq := startMacroInstance_eq m options .hold key none
  have hlifecycle := sourceLifecycle_allocate h options .hold key none (by simp)
  refine ⟨holdsLoop_iff.mpr ⟨?_, ?_, ?_⟩, ?_⟩
  · rw [heq]
    exact Finset.mem_insert_self _ _
  · rw [heq]
    intro hdying
    have hle := hbounded.dying _ hdying
    omega
  · rw [heq]
    exact ⟨_, Dict.get?_insert_self _ _ _, rfl, rfl, rfl⟩
  · unfold startMacroInstance
    dsimp only
    rw [hlifecycle]
    split
    · rw [Dict.get?_insert_self]
      simp
    · intro hpaused
      have hle := hbounded.pauses (m.instanceSeq + 1) (by
        change m.pauses.get? (m.instanceSeq + 1) = some true at hpaused
        rw [hpaused]
        simp)
      omega

theorem loops_of_findsLoop (h : Trees m) {expired : Finset ℕ} (hpress : options.triggerValue = 1)
    (hfinds : FindsLoop m options expired)
    (hanswered : (resumePausedMacro m options expired).1 = true ∨
      alreadyRunning (resumePausedMacro m options expired).2 options.source = true) :
    ∃ i, Loops (resumePausedMacro m options expired).2 options.source i := by
  rw [resumePausedMacro_eq m hpress] at hanswered ⊢
  have htrees : Trees (resumableRoots m options expired).2 :=
    h.later (later_resumableRoots (P := fun _ => True) h options.source options.macroName
      expired _ [] (fun i hi info hinfo => by
        obtain ⟨info', hinfo', -, -, -, hsource⟩ := mem_findMatching.mp hi
        rw [hinfo] at hinfo'
        cases hinfo'
        exact hsource) fun r hr => absurd hr List.not_mem_nil).1
  unfold FindsLoop at hfinds
  generalize resumableRoots m options expired = found at hanswered hfinds htrees ⊢
  obtain ⟨roots, m₁⟩ := found
  have hnonempty : roots ≠ [] ∨ alreadyRunning m₁ options.source = true := by
    by_cases hroots : roots = []
    · rw [hroots] at hanswered
      exact .inr (hanswered.resolve_left (by simp))
    · exact .inl hroots
  obtain ⟨i, -, hholds, hrunning⟩ := hfinds hnonempty
  refine ⟨i, ?_⟩
  obtain hpause | ⟨root, hin, hroot, hdescendant⟩ := hrunning
  · exact loops_foldl_resumeRoot ⟨hholds, hpause⟩
  · obtain ⟨hle, -, hcancel⟩ := htrees.known i hholds.1
    exact loops_of_resumed hin hroot hholds hle (fun hc => hholds.2.1 (hcancel hc)) hdescendant

/-- A press of a hold macro that is accepted leaves an instance that loops. -/
theorem loops_of_accepts (h : Trees m) (hbounded : Bounded m) {events : Option ℕ}
    {expired : Finset ℕ} (hpress : options.triggerValue = 1)
    (hhold : normalizeLoopMode options.loopMode = .hold) (hsource : isSource options.source = true)
    (haccepts : accepts m options events expired = true) (hfinds : FindsLoop m options expired) :
    ∃ i, Loops (pressTrigger m options events expired).1 options.source i := by
  have hfound := loops_of_findsLoop h hpress hfinds
  have htrees := h.later (later_resumePausedMacro h options expired)
  have hbounded' := (lasting_resumePausedMacro h options.source options expired).bounded hbounded
  unfold accepts at haccepts
  unfold pressTrigger
  dsimp only at haccepts ⊢
  generalize resumePausedMacro m options expired = result at haccepts hfound htrees hbounded' ⊢
  obtain ⟨resumed, m₁⟩ := result
  cases resumed with
  | true => simpa using hfound (.inl rfl)
  | false =>
    simp only [Bool.false_eq_true, if_false, hhold, hsource, reduceCtorEq, false_and,
      and_false, true_and]
    by_cases hrunning : alreadyRunning m₁ options.source = true
    · obtain ⟨i, hi⟩ := hfound (.inr hrunning)
      refine ⟨i, ?_⟩
      unfold alreadyRunning at hrunning
      rw [if_pos hrunning]
      exact hi
    · have hevents : events.getD options.macroEvents ≠ 0 := by
        simpa [hrunning] using haccepts
      unfold alreadyRunning at hrunning
      rw [if_neg hrunning, if_neg hevents]
      exact ⟨_, loops_startMacroInstance htrees hbounded' options options.source⟩

end Instances

/-! ## The system -/

def isHoldPress (options : MacroPlaybackOptions) : Bool :=
  options.triggerValue = 1 && normalizeLoopMode options.loopMode = .hold &&
    isSource options.source

/-- `_play_macro_request` loads the stored macro before `play_macro`. -/
def loadsMacro (options : MacroPlaybackOptions) : Bool :=
  options.loadStoredMacro && options.eventSource.isNone && options.macroName ≠ "" &&
    options.macroEvents = 0

/-- A press of a hold macro with what it is answered by. -/
structure Press where
  macroState : MacroRuntimeState
  options : MacroPlaybackOptions
  events : Option ℕ
  expired : Finset ℕ

/- The press of a hold macro that a step answers. The request resumes paused runs
itself, before the load of its macro, and `play_macro` tries again. -/
def pressOf (s : State) : Op → Option Press
  | .serve source serial expired =>
    match requestOf s source serial with
    | some ⟨_, options, .waiting⟩ =>
      if isHoldPress options = false ∨ s.inputPaused = true then none
      else
        let (resumed, m) := resumePausedMacro s.macroState options expired
        if resumed then some ⟨s.macroState, options, options.eventSource, expired⟩
        else if loadsMacro options ∨ s.outputs = false then none
        else some ⟨m, options, options.eventSource, expired⟩
    | _ => none
  | .loaded source serial (some events) expired =>
    match requestOf s source serial with
    | some ⟨_, options, .loading⟩ =>
      if isHoldPress options = false ∨ s.inputPaused = true ∨ s.outputs = false then none
      else some ⟨s.macroState, options, some events, expired⟩
    | _ => none
  | _ => none

def Press.accepted (press : Press) : Bool :=
  accepts press.macroState press.options press.events press.expired

/- `answered` are the accepted presses of hold macros whose trigger has not been
released, each with the looping instances of its trigger once it was answered.
`failed` are the instances that ended though their loop goes on. -/
structure System where
  base : State := {}
  answered : List (Key × List ℕ) := []
  failed : Finset ℕ := ∅

def System.initial : System := {}

def answersOf (s t : State) (op : Op) : List (Key × List ℕ) :=
  match pressOf s op with
  | some press =>
    if press.accepted then
      [(press.options.source, loopingIds t.macroState press.options.source)]
    else []
  | none => []

/-- The last press or release of a trigger that was handled is its release. -/
def released (s : State) (source : Key) : Bool :=
  (s.lastHandled.get? source).any fun last => last.2 = 0

def failures (s : State) : Op → Finset ℕ
  | .ends i => if (s.macroState.instanceMeta.get? i).any shouldContinue then {i} else ∅
  | _ => ∅

def step (s : System) (op : Op) : Option System :=
  (Playback.step s.base op).map fun base =>
    { base
      answered := (s.answered ++ answersOf s.base base op).filter fun answer =>
        ! released base answer.1
      failed := s.failed ∪ failures s.base op }

/-- A press that is answered by resumed or running instances finds one that loops. -/
def Finds (s : System) (op : Op) : Prop :=
  ∀ press ∈ pressOf s.base op, press.accepted = true →
    FindsLoop press.macroState press.options press.expired

instance decidableFinds (s : System) (op : Op) : Decidable (Finds s op) :=
  inferInstanceAs (Decidable (∀ press ∈ pressOf s.base op, press.accepted = true →
    FindsLoop press.macroState press.options press.expired))

/-! ## What holds along a run -/

/- Each instance that answered a press loops until its trigger is released, unless
it fails or is cancelled, and there is one for each press. -/
structure Kept (s : System) : Prop where
  inv : Inv none s.base
  bounded : Bounded s.base.macroState
  answered : ∀ answer ∈ s.answered, isSource answer.1 = true ∧ answer.2 ≠ [] ∧
    ∀ i ∈ answer.2, Loops s.base.macroState answer.1 i ∨ i ∈ s.failed ∨
      i ∈ s.base.macroState.dying

section Steps

variable {s t : State} {source : Key} {r : Request} {m : MacroRuntimeState}

theorem bounded_empty : Bounded {} :=
  ⟨fun i hi => absurd hi (Finset.notMem_empty i), fun _ hi => absurd rfl hi⟩

theorem kept_initial : Kept System.initial where
  inv := inv_initial
  bounded := bounded_empty
  answered := fun _ hin => absurd hin List.not_mem_nil

@[simp] theorem macroState_removeRequest (s : State) (source : Key) (serial : ℕ) :
    (removeRequest s source serial).macroState = s.macroState := rfl

@[simp] theorem macroState_setPhase (s : State) (source : Key) (serial : ℕ) (phase : Phase) :
    (setPhase s source serial phase).macroState = s.macroState := rfl

@[simp] theorem macroState_handled (s : State) (source : Key) (serial : ℕ) (value : Int) :
    (s.handled source serial value).macroState = s.macroState := by
  unfold State.handled
  split <;> rfl

@[simp] theorem macroState_afterPlay (s : State) (source : Key) (serial : ℕ)
    (result : MacroRuntimeState × Finset ℕ) :
    (afterPlay s source serial result).macroState = result.1 := by
  unfold afterPlay
  dsimp only
  split <;> rfl

theorem lastHandled_afterPlay (s : State) (source : Key) (serial : ℕ)
    (result : MacroRuntimeState × Finset ℕ) :
    (afterPlay s source serial result).lastHandled = s.lastHandled := by
  unfold afterPlay
  dsimp only
  split <;> rfl

/-- A handled release ends the obligations of its trigger. -/
theorem released_playMacro {events : Option ℕ} {expired : Finset ℕ} (houtputs : s.outputs = true)
    (hrelease : r.options.triggerValue = 0) (hsource : isSource source = true)
    (heq : r.options.source = source) :
    released (playMacro s r events expired) source = true := by
  unfold playMacro released
  dsimp only
  rw [if_neg (by simp [houtputs]), if_pos hrelease, lastHandled_afterPlay, heq]
  unfold State.handled
  rw [if_pos hsource, Dict.get?_insert_self]
  rfl

theorem lasting_playMacro (h : Trees s.macroState) {events : Option ℕ} {expired : Finset ℕ}
    (hheld : r.options.source ≠ source ∨ isSource source = true ∧
      released (playMacro s r events expired) source = false) :
    Lasting source s.macroState (playMacro s r events expired).macroState := by
  by_cases houtputs : s.outputs = true
  · by_cases hrelease : r.options.triggerValue = 0
    · have hne : r.options.source ≠ source := by
        intro heq
        obtain ⟨hsource, hheld⟩ := hheld.resolve_left (not_not_intro heq)
        rw [released_playMacro houtputs hrelease hsource heq] at hheld
        cases hheld
      unfold playMacro
      dsimp only
      rw [if_neg (by simp [houtputs]), if_pos hrelease, macroState_afterPlay]
      exact lasting_releaseTrigger h hne
    · unfold playMacro
      dsimp only
      rw [if_neg (by simp [houtputs]), if_neg hrelease]
      split
      · exact Lasting.refl source _
      · rw [macroState_afterPlay]
        exact lasting_pressTrigger h source r.options events expired
  · unfold playMacro
    dsimp only
    rw [if_pos (by simpa using houtputs)]
    exact Lasting.refl source _

theorem lasting_serveRequest (h : Trees s.macroState) {expired : Finset ℕ}
    (hheld : r.options.source ≠ source ∨ isSource source = true ∧
      released (serveRequest s r expired) source = false) :
    Lasting source s.macroState (serveRequest s r expired).macroState := by
  unfold serveRequest at hheld ⊢
  dsimp only at hheld ⊢
  split at hheld
  · rename_i hpaused
    rw [if_pos hpaused]
    exact Lasting.refl source _
  · rename_i hrunning
    rw [if_neg hrunning]
    have hstate : (if decide (r.options.triggerValue = 1) = true then
        s.handled r.options.source r.serial 1 else s).macroState = s.macroState := by
      split
      · exact macroState_handled s _ _ _
      · rfl
    generalize (if decide (r.options.triggerValue = 1) = true then
      s.handled r.options.source r.serial 1 else s) = s' at hheld hstate ⊢
    have hresume := lasting_resumePausedMacro (hstate ▸ h) source r.options expired
    have htrees := (hstate ▸ h : Trees s'.macroState).later
      (later_resumePausedMacro (hstate ▸ h) r.options expired)
    rw [hstate] at hresume
    split at hheld
    · rename_i hresumed
      rw [if_pos hresumed, macroState_removeRequest]
      rw [hstate]
      exact hresume
    · rename_i hresumed
      rw [if_neg hresumed]
      split at hheld
      · rename_i hload
        rw [if_pos hload, macroState_setPhase]
        rw [hstate]
        exact hresume
      · rename_i hload
        rw [if_neg hload]
        refine Lasting.trans ?_ (lasting_playMacro htrees hheld)
        rw [hstate]
        exact hresume

theorem lasting_startChildMacro (h : Trees m) (source : Key) (options : MacroPlaybackOptions)
    (parent : ℕ) :
    Lasting source m (startChildMacro m options parent) := by
  unfold startChildMacro
  dsimp only
  generalize (if normalizeLoopMode options.loopMode = .toggle then LoopMode.none
    else normalizeLoopMode options.loopMode) = mode
  split
  · exact Lasting.refl source m
  · split
    · exact Lasting.refl source m
    · exact lasting_startMacroInstance h source options _ _ _

/-- Forgetting cancelled instances. -/
theorem lasting_foldl_forgetInstance (source : Key) {ids : List ℕ} (hids : ∀ i ∈ ids, i ∈ m.dying) :
    Lasting source m (ids.foldl forgetInstance m) :=
  Lasting.foldl (I := fun m => ∀ i ∈ ids, i ∈ m.dying) (fun _ hm _ _ => hm)
    (fun _ hm i hi => lasting_forgetInstance fun _ => hm i hi) hids

/-- An instance ends: the others loop on. -/
theorem loops_ends {i j : ℕ} (h : Loops m source j) (hne : j ≠ i) :
    Loops (forgetInstance (endTask m i) i) source j := by
  obtain ⟨hin, hnot, info, hget, hinfo⟩ := holdsLoop_iff.mp h.1
  have hends : Loops (endTask m i) source j :=
    ⟨holdsLoop_iff.mpr ⟨Finset.mem_erase.mpr ⟨hne, hin⟩, hnot, info, hget, hinfo⟩, h.2⟩
  refine ((lasting_forgetInstance fun hi => ?_).looping j hends).resolve_right hnot
  exact absurd hi (Finset.notMem_erase i _)

/-- The trigger whose request a step serves. -/
def keyOf : Op → Option Key
  | .serve key _ _ => some key
  | .loaded key _ _ _ => some key
  | _ => none

/-- Every step but the end of an instance. -/
theorem lasting_step (h : Inv none s) {op : Op} (hop : ∀ i, op ≠ .ends i)
    (hstep : Playback.step s op = some t)
    (hheld : keyOf op ≠ some source ∨ isSource source = true ∧ released t source = false) :
    Lasting source s.macroState t.macroState := by
  cases op with
  | arrive options
  | drop key serial
  | setOutputs outputs
  | setInputPaused inputPaused =>
    cases hstep
    exact Lasting.refl source _
  | serve key serial expired =>
    simp only [Playback.step] at hstep
    split at hstep
    · rename_i serial' options hr
      obtain ⟨hmem, -⟩ := requestOf_mem hr
      have hkey : options.source = key := (h.queues key).sources _ hmem
      cases hstep
      refine lasting_serveRequest h.trees (hheld.imp_left fun hne heq => hne ?_)
      exact congrArg some (hkey.symm.trans heq)
    · cases hstep
  | loaded key serial events expired =>
    simp only [Playback.step] at hstep
    split at hstep
    · rename_i serial' options hr
      obtain ⟨hmem, -⟩ := requestOf_mem hr
      have hkey : options.source = key := (h.queues key).sources _ hmem
      split at hstep
      · cases hstep
        exact Lasting.refl source _
      · split at hstep
        · cases hstep
          exact Lasting.refl source _
        · cases hstep
          refine lasting_playMacro h.trees (hheld.imp_left fun hne heq => hne ?_)
          exact congrArg some (hkey.symm.trans heq)
    · cases hstep
  | stopped key serial =>
    simp only [Playback.step] at hstep
    split at hstep
    · rename_i serial' options ids hr
      obtain ⟨hmem, -⟩ := requestOf_mem hr
      cases hstep
      refine lasting_foldl_forgetInstance source fun i hi => ?_
      exact (h.queues key).stopping _ hmem ids rfl i (by simpa using (List.mem_filter.mp hi).2)
    · cases hstep
  | child parent options =>
    obtain ⟨-, rfl⟩ := enabled_eq_some.mp hstep
    exact lasting_startChildMacro h.trees source options parent
  | iterate i =>
    simp only [Playback.step] at hstep
    split at hstep
    · split at hstep
      · cases hstep
      · split at hstep
        · cases hstep
          exact Lasting.refl source _
        · cases hstep
    · cases hstep
  | ends i => exact absurd rfl (hop i)
  | vanish i =>
    obtain ⟨⟨-, hdying⟩, rfl⟩ := enabled_eq_some.mp hstep
    refine ⟨Finset.Subset.refl _, fun hm => ⟨hm.dying, hm.pauses⟩, fun j hj => ?_⟩
    obtain ⟨hin, hnot, hinfo⟩ := holdsLoop_iff.mp hj.1
    have hne : j ≠ i := by
      rintro rfl
      exact hnot hdying
    exact .inl ⟨holdsLoop_iff.mpr ⟨Finset.mem_erase.mpr ⟨hne, hin⟩, hnot, hinfo⟩, hj.2⟩
  | expire i =>
    obtain ⟨-, rfl⟩ := enabled_eq_some.mp hstep
    exact lasting_expirePausedInstance h.trees source i
  | cancel ids =>
    obtain ⟨hids, rfl⟩ := enabled_eq_some.mp hstep
    refine lasting_markCancelled (le_of_mem_descendants h.trees fun i hi => ?_)
    obtain ⟨info, hinfo⟩ :=
      Option.isSome_iff_exists.mp (hids i (List.mem_toFinset.mp hi))
    exact (h.trees.issued i info hinfo).1
  | forget ids =>
    obtain ⟨hids, rfl⟩ := enabled_eq_some.mp hstep
    exact lasting_foldl_forgetInstance source hids

theorem exists_other_key (key : Option Key) : ∃ source : Key, key ≠ some source := by
  by_cases hkey : key = some ("", "")
  · refine ⟨("other", ""), ?_⟩
    rw [hkey]
    decide
  · exact ⟨("", ""), hkey⟩

theorem bounded_step (h : Inv none s) (hbounded : Bounded s.macroState) {op : Op}
    (hstep : Playback.step s op = some t) : Bounded t.macroState := by
  by_cases hop : ∃ i, op = .ends i
  · obtain ⟨i, rfl⟩ := hop
    obtain ⟨-, rfl⟩ := enabled_eq_some.mp hstep
    refine ⟨hbounded.dying, fun j hj => hbounded.pauses j fun hnone => hj ?_⟩
    change (s.macroState.pauses.erase i).get? j = none
    rw [Dict.get?_erase, hnone, ite_self]
  · obtain ⟨source, hsource⟩ := exists_other_key (keyOf op)
    have hlasting := lasting_step h (fun i hi => hop ⟨i, hi⟩) hstep (.inl hsource)
    exact hlasting.bounded hbounded

theorem isHoldPress_iff {options : MacroPlaybackOptions} :
    isHoldPress options = true ↔ options.triggerValue = 1 ∧
      normalizeLoopMode options.loopMode = .hold ∧ isSource options.source = true := by
  simp only [isHoldPress, Bool.and_eq_true, decide_eq_true_eq, and_assoc]

/-- The press that `play_macro` accepts. -/
theorem loops_playMacro (h : Trees s.macroState) (hbounded : Bounded s.macroState)
    {events : Option ℕ} {expired : Finset ℕ} (houtputs : s.outputs = true)
    (hpress : isHoldPress r.options = true)
    (haccepts : accepts s.macroState r.options events expired = true)
    (hfinds : FindsLoop s.macroState r.options expired) :
    ∃ i, Loops (playMacro s r events expired).macroState r.options.source i := by
  obtain ⟨htrigger, hhold, hsource⟩ := isHoldPress_iff.mp hpress
  have hrelease : r.options.triggerValue ≠ 0 := by omega
  unfold playMacro
  dsimp only
  rw [if_neg (by simp [houtputs]), if_neg hrelease, if_neg (not_not_intro htrigger),
    macroState_afterPlay]
  exact loops_of_accepts h hbounded htrigger hhold hsource haccepts hfinds

/-- An accepted press that finds a looping instance leaves one. -/
theorem loops_of_answer (h : Inv none s) (hbounded : Bounded s.macroState) {op : Op}
    (hstep : Playback.step s op = some t) {press : Press} (hpress : pressOf s op = some press)
    (haccepted : press.accepted = true)
    (hfinds : FindsLoop press.macroState press.options press.expired) :
    isSource press.options.source = true ∧
      ∃ i, Loops t.macroState press.options.source i := by
  cases op with
  | serve key serial expired =>
    simp only [pressOf] at hpress
    simp only [Playback.step] at hstep
    split at hpress
    · rename_i serial' options hr
      rw [hr] at hstep
      cases hstep
      split at hpress
      · cases hpress
      · rename_i hhold
        obtain ⟨hhold, hpaused⟩ := not_or.mp hhold
        have hhold := Bool.eq_true_of_not_eq_false hhold
        obtain ⟨htrigger, -, hsource⟩ := isHoldPress_iff.mp hhold
        have hrunning : ¬(decide (options.triggerValue = 1) && s.inputPaused) = true := by
          simp [hpaused]
        unfold serveRequest
        dsimp only
        rw [if_neg hrunning, if_pos (decide_eq_true htrigger), macroState_handled]
        split at hpress
        · rename_i hresumed
          cases hpress
          rw [if_pos hresumed, macroState_removeRequest]
          exact ⟨hsource, loops_of_findsLoop h.trees htrigger hfinds (.inl hresumed)⟩
        · rename_i hresumed
          split at hpress
          · cases hpress
          · rename_i hplays
            obtain ⟨hload, houtputs⟩ := not_or.mp hplays
            cases hpress
            have hload' : ¬(decide (options.triggerValue = 1) && options.loadStoredMacro &&
                options.eventSource.isNone && options.macroName ≠ "" &&
                options.macroEvents = 0) = true := by
              intro hloads
              refine hload ?_
              simp only [Bool.and_eq_true] at hloads
              simp only [loadsMacro, Bool.and_eq_true]
              exact ⟨⟨⟨hloads.1.1.1.2, hloads.1.1.2⟩, hloads.1.2⟩, hloads.2⟩
            rw [if_neg hresumed, if_neg hload']
            refine ⟨hsource, loops_playMacro
              (h.trees.later (later_resumePausedMacro h.trees options expired))
              ((lasting_resumePausedMacro h.trees options.source options expired).bounded
                hbounded) ?_ hhold haccepted hfinds⟩
            change (s.handled options.source serial' 1).outputs = true
            unfold State.handled
            split <;> exact Bool.eq_true_of_not_eq_false houtputs
    · cases hpress
  | loaded key serial events expired =>
    cases events with
    | none => cases hpress
    | some events =>
      simp only [pressOf] at hpress
      simp only [Playback.step] at hstep
      split at hpress
      · rename_i serial' options hr
        rw [hr] at hstep
        split at hpress
        · cases hpress
        · rename_i hhold
          obtain ⟨hhold, hrest⟩ := not_or.mp hhold
          obtain ⟨hpaused, houtputs⟩ := not_or.mp hrest
          have hhold := Bool.eq_true_of_not_eq_false hhold
          cases hpress
          simp only [if_neg hpaused, Option.some.injEq] at hstep
          rw [← hstep]
          exact ⟨(isHoldPress_iff.mp hhold).2.2, loops_playMacro h.trees hbounded
            (Bool.eq_true_of_not_eq_false houtputs) hhold haccepted hfinds⟩
      · cases hpress
  | arrive options
  | stopped key serial
  | drop key serial
  | child parent options
  | iterate i
  | ends i
  | vanish i
  | expire i
  | cancel ids
  | forget ids
  | setOutputs outputs
  | setInputPaused inputPaused => cases hpress

theorem kept_step (s : System) (op : Op) (t : System) (h : Kept s) (hfinds : Finds s op)
    (hstep : step s op = some t) : Kept t := by
  obtain ⟨base, hbase, rfl⟩ := Option.map_eq_some_iff.mp hstep
  refine ⟨h.inv.step hbase, bounded_step h.inv h.bounded hbase, ?_⟩
  intro answer hin
  obtain ⟨hin, hheld⟩ := List.mem_filter.mp hin
  have hheld : released base answer.1 = false := by simpa using hheld
  obtain hold | hnew := List.mem_append.mp hin
  · obtain ⟨hsource, hnonempty, hall⟩ := h.answered answer hold
    refine ⟨hsource, hnonempty, fun i hi => ?_⟩
    by_cases hop : ∃ j, op = .ends j
    · obtain ⟨j, rfl⟩ := hop
      obtain ⟨-, rfl⟩ := enabled_eq_some.mp hbase
      obtain hloops | hfailed | hdying := hall i hi
      · by_cases hij : i = j
        · -- a looping instance ends only when it fails
          obtain ⟨-, -, info, hinfo, -, hmode, hactive⟩ := holdsLoop_iff.mp hloops.1
          refine .inr (.inl (Finset.mem_union_right _ ?_))
          have hcontinues :
              ((s.base.macroState.instanceMeta.get? j).any shouldContinue) = true := by
            rw [← hij, hinfo, Option.any_some, shouldContinue, hmode]
            exact hactive
          rw [failures, if_pos hcontinues, hij]
          exact Finset.mem_singleton_self j
        · exact .inl (loops_ends hloops hij)
      · exact .inr (.inl (Finset.mem_union_left _ hfailed))
      · exact .inr (.inr hdying)
    · have hlasting := lasting_step h.inv (fun j hj => hop ⟨j, hj⟩) hbase (.inr ⟨hsource, hheld⟩)
      obtain hloops | hfailed | hdying := hall i hi
      · exact (hlasting.looping i hloops).imp_right .inr
      · exact .inr (.inl (Finset.mem_union_left _ hfailed))
      · exact .inr (.inr (hlasting.dying hdying))
  · unfold answersOf at hnew
    split at hnew
    · rename_i press hpress
      split at hnew
      · rename_i haccepted
        obtain ⟨hsource, i, hi⟩ := loops_of_answer h.inv h.bounded hbase hpress haccepted
          (hfinds press hpress haccepted)
        rw [List.mem_singleton.mp hnew]
        refine ⟨hsource, List.ne_nil_of_mem (mem_loopingIds.mpr hi), fun j hj => ?_⟩
        exact .inl (mem_loopingIds.mp hj)
      · exact absurd hnew List.not_mem_nil
    · exact absurd hnew List.not_mem_nil

end Steps

/- From the moment an accepted press of a hold macro was answered until its trigger
is released, an unpaused instance of the trigger has its loop active, or the
instances that answered the press have failed or were cancelled. -/
theorem held_triggers_keep_looping {ops : List Op} {s : System}
    (hfinds : Guarded step Finds System.initial ops) (hrun : run step System.initial ops = some s)
    {answer : Key × List ℕ} (hanswer : answer ∈ s.answered) :
    (∃ i, Active s.base.macroState answer.1 i) ∨
      answer.2 ≠ [] ∧ ∀ i ∈ answer.2, i ∈ s.failed ∨ i ∈ s.base.macroState.dying := by
  have hkept : Kept s := guarded_run_invariant kept_step kept_initial hfinds hrun
  obtain ⟨-, hnonempty, hall⟩ := hkept.answered answer hanswer
  by_cases hloops : ∃ i, Loops s.base.macroState answer.1 i
  · obtain ⟨i, hi⟩ := hloops
    exact .inl ⟨i, hi.active⟩
  · refine .inr ⟨hnonempty, fun i hi => ?_⟩
    exact (hall i hi).resolve_left fun hi => hloops ⟨i, hi⟩

/-! ## A press during the last run -/

def holdMacro (triggerValue : Int) : MacroPlaybackOptions where
  macroName := "m"
  macroEvents := 2
  loopMode := "hold"
  source := ("keyboard", "KEY_A")
  triggerValue := triggerValue

def pressRun : List Op := [.arrive (holdMacro 1), .serve ("keyboard", "KEY_A") 0 ∅]

theorem held_triggers_keep_looping_press : ∃ s, run step System.initial pressRun = some s ∧
    (("keyboard", "KEY_A"), [1]) ∈ s.answered ∧
    ((∃ i, Active s.base.macroState ("keyboard", "KEY_A") i) ∨
      [1] ≠ [] ∧ ∀ i ∈ [1], i ∈ s.failed ∨ i ∈ s.base.macroState.dying) := by
  have hsome : (run step System.initial pressRun).any
      (fun s => (("keyboard", "KEY_A"), [1]) ∈ s.answered) = true := by decide +kernel
  obtain ⟨s, hrun, hs⟩ := (Option.any_eq_true _ _).mp hsome
  have hs := of_decide_eq_true hs
  have hfinds : Guarded step Finds System.initial pressRun := by decide +kernel
  exact ⟨s, hrun, hs, held_triggers_keep_looping hfinds hrun hs⟩

/- The trigger is pressed again while the run that its release lets finish is
still going: the press is answered by that run. -/
def pressedAgainRun : List Op :=
  pressRun ++ [.arrive (holdMacro 0), .serve ("keyboard", "KEY_A") 1 ∅, .arrive (holdMacro 1),
    .serve ("keyboard", "KEY_A") 2 ∅]

theorem pressed_again_stops_looping :
    ¬ ∀ (ops : List Op) (s : System), run step System.initial ops = some s →
      ∀ answer ∈ s.answered, (∃ i, Active s.base.macroState answer.1 i) ∨
        answer.2 ≠ [] ∧ ∀ i ∈ answer.2, i ∈ s.failed ∨ i ∈ s.base.macroState.dying := by
  intro h
  have hsome : (run step System.initial pressedAgainRun).any (fun s =>
      (("keyboard", "KEY_A"), []) ∈ s.answered ∧
        (s.base.macroState.instanceMeta.values.all fun info => ! info.loopActive) = true) =
      true := by decide +kernel
  obtain ⟨s, hrun, hs⟩ := (Option.any_eq_true _ _).mp hsome
  obtain ⟨hanswer, hstopped⟩ := of_decide_eq_true hs
  obtain ⟨i, -, -, info, hinfo, -, hactive⟩ | ⟨hnonempty, -⟩ :=
    h pressedAgainRun s hrun _ hanswer
  · have hnot := List.all_eq_true.mp hstopped info (Dict.mem_values_iff.mpr ⟨i, hinfo⟩)
    rw [hactive] at hnot
    cases hnot
  · exact hnonempty rfl

end Keymasq.Macros.Looping
