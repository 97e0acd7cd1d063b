import Keymasq.Action.Sequences

/-!
# The order of action sequences

The tasks of a source that were not cancelled begin in the order of their submission, each when
those before it have ended. This needs that a step which starts eagerly submits nothing more to
its own source, for it is in no lane yet.
-/

namespace Keymasq.Action.SequenceOrder
open Sequences

variable {K Owner : Type} {s : State K Owner}

/-- Of the tasks of a source that were not cancelled, one begins when those before it have ended:
each waits for the last of them. -/
structure Chained (s : State K Owner) : Prop where
  order : ∀ t u task other, s.tasks t = some task → s.tasks u = some other →
    task.key = other.key → t < u → task.cancelled = false → other.begun = true → task.done = true
  waiting : ∀ t task, s.tasks t = some task → task.begun = false → task.done = false →
    task.cancelled = false → ∃ p prev, task.previous = some p ∧ s.tasks p = some prev ∧
      prev.cancelled = false ∧ prev.key = task.key ∧ p < t ∧
      ∀ u other, u < t → s.tasks u = some other → other.key = task.key →
        other.cancelled = false → other.done = false → u ≤ p
  begun : ∀ t task, s.tasks t = some task → task.done = true → task.cancelled = false →
    task.begun = true
  latest : ∀ start ∈ s.starts, ∀ u other, s.tasks u = some other → other.key = start.key →
    u ≤ start.task
  running : ∀ t, s.running = some (.task t) → ∃ task, s.tasks t = some task ∧ task.begun = true

/-- Moreover, those that have not ended are in the lane in order, or start eagerly. -/
structure Ordered (s : State K Owner) : Prop extends Chained s where
  sorted : ∀ key lane, s.lanes key = some lane → lane.Pairwise (· < ·)
  listed : ∀ t task, s.tasks t = some task → task.cancelled = false → task.done = false →
    (∃ lane, s.lanes task.key = some lane ∧ t ∈ lane) ∨ ∃ start ∈ s.starts, start.task = t

theorem ordered_start : Ordered ({} : State K Owner) where
  order t u task other h := by cases h
  waiting t task h := by cases h
  begun t task h := by cases h
  latest start h := by cases h
  running t h := by cases h
  sorted key lane h := by cases h
  listed t task h := by cases h

theorem Ordered.setRunning (h : Ordered s) (running : Option Code)
    (hrunning : ∀ t, running = some (.task t) →
      ∃ task, s.tasks t = some task ∧ task.begun = true) : Ordered { s with running } :=
  ⟨⟨h.order, h.waiting, h.begun, h.latest, hrunning⟩, h.sorted, h.listed⟩

/-- A task goes on: it keeps its place, and what has begun or ended stays so. -/
structure GoesOn (before after : Sequences.Task K) : Prop where
  key : after.key = before.key
  previous : after.previous = before.previous
  cancelled : after.cancelled = before.cancelled
  begun : before.begun = true → after.begun = true
  done : before.done = true → after.done = true

theorem GoesOn.refl (task : Sequences.Task K) : GoesOn task task := ⟨rfl, rfl, rfl, id, id⟩

/-- One task goes on: it begins when those before it have ended, and ends when it has begun. -/
theorem Chained.goOn (h : Chained s) {t : ℕ} {f : Sequences.Task K → Sequences.Task K}
    (hf : ∀ task, GoesOn task (f task))
    (hbegins : ∀ mine, s.tasks t = some mine → mine.begun = false → (f mine).begun = true →
      ∀ u task, s.tasks u = some task → task.key = mine.key → u < t → task.cancelled = false →
        task.done = true)
    (hends : ∀ mine, s.tasks t = some mine → mine.done = false → (f mine).done = true →
      mine.cancelled = false → (f mine).begun = true)
    {lanes : K → Option (List ℕ)} {owners : K → Option Owner} {starts : List (Start K Owner)}
    (hsorted : ∀ key lane, lanes key = some lane → lane.Pairwise (· < ·))
    (hlisted : ∀ u task, s.tasks u = some task → task.cancelled = false → task.done = false →
      (u = t → (f task).done = false) →
      (∃ lane, lanes task.key = some lane ∧ u ∈ lane) ∨ ∃ start ∈ starts, start.task = u)
    (hlatest : ∀ start ∈ starts, start ∈ s.starts) :
    Ordered { setTask s t f with lanes, owners, starts } := by
  have hback : ∀ u task, (setTask s t f).tasks u = some task →
      ∃ before, s.tasks u = some before ∧ GoesOn before task ∧
        ((u = t ∧ task = f before) ∨ (u ≠ t ∧ task = before)) := by
    intro u task htask
    rcases setTask_eq_some s htask with ⟨heq, before, hbefore, rfl⟩ | ⟨hne, hbefore⟩
    · exact ⟨before, hbefore, hf before, .inl ⟨heq, rfl⟩⟩
    · exact ⟨task, hbefore, .refl task, .inr ⟨hne, rfl⟩⟩
  have hforth : ∀ u before, s.tasks u = some before →
      ∃ task, (setTask s t f).tasks u = some task ∧ GoesOn before task := by
    intro u before hbefore
    by_cases hu : u = t
    · rw [hu] at hbefore ⊢
      exact ⟨_, setTask_self s hbefore _, hf before⟩
    · exact ⟨before, (setTask_of_ne s hu _).trans hbefore, .refl before⟩
  have hopen : ∀ {before task : Sequences.Task K}, GoesOn before task → task.done = false →
      before.done = false := fun hgoes hdone =>
    Bool.eq_false_iff.mpr fun hyes => Bool.eq_false_iff.mp hdone (hgoes.done hyes)
  exact {
    sorted := hsorted
    order := by
      intro t₁ t₂ task other htask hother hkey hlt hcancelled hbegun
      obtain ⟨task₁, htask₁, hgoes₁, -⟩ := hback t₁ task htask
      obtain ⟨task₂, htask₂, hgoes₂, hchange⟩ := hback t₂ other hother
      have hsame : task₁.key = task₂.key := (hgoes₁.key.symm.trans hkey).trans hgoes₂.key
      refine hgoes₁.done ?_
      by_cases hbefore : task₂.begun = true
      · exact h.order t₁ t₂ task₁ task₂ htask₁ htask₂ hsame hlt
          (hgoes₁.cancelled.symm.trans hcancelled) hbefore
      · rcases hchange with ⟨heq, rfl⟩ | ⟨-, rfl⟩
        · exact hbegins task₂ (heq ▸ htask₂) (Bool.eq_false_iff.mpr hbefore) hbegun t₁ task₁ htask₁
            hsame (heq ▸ hlt) (hgoes₁.cancelled.symm.trans hcancelled)
        · exact absurd hbegun hbefore
    waiting := by
      intro u task htask hbegun hdone hcancelled
      obtain ⟨before, hbefore, hgoes, -⟩ := hback u task htask
      obtain ⟨p, prev, hp, hprev, hpc, hpk, hlt, hlast⟩ := h.waiting u before hbefore
        (Bool.eq_false_iff.mpr fun hyes => Bool.eq_false_iff.mp hbegun (hgoes.begun hyes))
        (hopen hgoes hdone) (hgoes.cancelled.symm.trans hcancelled)
      obtain ⟨after, hafter, hgoesP⟩ := hforth p prev hprev
      refine ⟨p, after, hgoes.previous.trans hp, hafter, hgoesP.cancelled.trans hpc,
        (hgoesP.key.trans hpk).trans hgoes.key.symm, hlt, ?_⟩
      intro v other hv hother hok hoc hod
      obtain ⟨old, hold, hgoesV, -⟩ := hback v other hother
      exact hlast v old hv hold ((hgoesV.key.symm.trans hok).trans hgoes.key)
        (hgoesV.cancelled.symm.trans hoc) (hopen hgoesV hod)
    begun := by
      intro u task htask hdone hcancelled
      obtain ⟨before, hbefore, hgoes, hchange⟩ := hback u task htask
      have hkept := hgoes.cancelled.symm.trans hcancelled
      by_cases hended : before.done = true
      · exact hgoes.begun (h.begun u before hbefore hended hkept)
      · rcases hchange with ⟨heq, rfl⟩ | ⟨-, rfl⟩
        · exact hends before (heq ▸ hbefore) (Bool.eq_false_iff.mpr hended) hdone hkept
        · exact absurd hdone hended
    listed := by
      intro u task htask hcancelled hdone
      obtain ⟨before, hbefore, hgoes, hchange⟩ := hback u task htask
      rw [hgoes.key]
      refine hlisted u before hbefore (hgoes.cancelled.symm.trans hcancelled) (hopen hgoes hdone)
        fun heq => ?_
      rcases hchange with ⟨-, rfl⟩ | ⟨hne, -⟩
      · exact hdone
      · exact absurd heq hne
    latest := by
      intro start hstart u task htask hkey
      obtain ⟨before, hbefore, hgoes, -⟩ := hback u task htask
      exact h.latest start (hlatest start hstart) u before hbefore (hgoes.key.symm.trans hkey)
    running := by
      intro u hu
      obtain ⟨before, hbefore, hbegun⟩ := h.running u hu
      obtain ⟨after, hafter, hgoes⟩ := hforth u before hbefore
      exact ⟨after, hafter, hgoes.begun hbegun⟩ }

/-- Only what the tables say about it changes. -/
theorem Chained.rewatch (h : Chained s) (t : ℕ) (watched : Bool)
    {lanes : K → Option (List ℕ)} {owners : K → Option Owner} {starts : List (Start K Owner)}
    (hsorted : ∀ key lane, lanes key = some lane → lane.Pairwise (· < ·))
    (hlisted : ∀ u task, s.tasks u = some task → task.cancelled = false → task.done = false →
      (∃ lane, lanes task.key = some lane ∧ u ∈ lane) ∨ ∃ start ∈ starts, start.task = u)
    (hlatest : ∀ start ∈ starts, start ∈ s.starts) :
    Ordered { setTask s t ({ · with watched }) with lanes, owners, starts } :=
  h.goOn (f := ({ · with watched })) (fun _ => ⟨rfl, rfl, rfl, id, id⟩)
    (fun _ _ hbegun hyes => absurd hyes (Bool.eq_false_iff.mp hbegun))
    (fun _ _ hdone hyes => absurd hyes (Bool.eq_false_iff.mp hdone)) hsorted
    (fun u task htask hcancelled hdone _ => hlisted u task htask hcancelled hdone) hlatest

/-- A task that has begun or was cancelled ends. -/
theorem Ordered.setDone (h : Ordered s) {t : ℕ} {mine : Sequences.Task K}
    (hmine : s.tasks t = some mine)
    (hends : mine.begun = true ∨ mine.cancelled = true) (starts : List (Start K Owner))
    (hstarts : ∀ start ∈ s.starts, start.task ≠ t → start ∈ starts)
    (hlatest : ∀ start ∈ starts, start ∈ s.starts) :
    Ordered { setTask s t ({ · with done := true }) with starts } := by
  refine h.toChained.goOn (f := ({ · with done := true }))
    (fun _ => ⟨rfl, rfl, rfl, id, fun _ => rfl⟩)
    (fun _ _ hbegun hyes => absurd hyes (Bool.eq_false_iff.mp hbegun)) ?_ h.sorted ?_ hlatest
  · intro task htask _ _ hcancelled
    rw [hmine, Option.some.injEq] at htask
    rw [← htask] at hcancelled ⊢
    exact hends.resolve_right (Bool.eq_false_iff.mp hcancelled)
  · intro u task htask hcancelled hdone hother
    rcases h.listed u task htask hcancelled hdone with hlane | ⟨start, hstart, heq⟩
    · exact .inl hlane
    · refine .inr ⟨start, hstarts start hstart fun hsame => ?_, heq⟩
      cases hother (heq.symm.trans hsame)

/-- A task begins when the one it waits for is done. -/
theorem Ordered.setBegun (h : Ordered s) {t : ℕ} {mine : Sequences.Task K}
    (hmine : s.tasks t = some mine) (hbegun : mine.begun = false) (hdone : mine.done = false)
    (hcancelled : mine.cancelled = false)
    (hready : mine.previous.all s.isDone = true) :
    Ordered (setTask s t ({ · with begun := true })) := by
  -- whatever came before has ended, like the one that was waited for
  have hquiet : ∀ u task, s.tasks u = some task → task.key = mine.key → u < t →
      task.cancelled = false → task.done = true := by
    intro u task htask hkey hlt hc
    obtain ⟨p, prev, hp, hprev, hpc, hpk, -, hlast⟩ :=
      h.waiting t mine hmine hbegun hdone hcancelled
    have hpdone : prev.done = true := by
      rw [hp] at hready
      change s.isDone p = true at hready
      unfold State.isDone at hready
      rw [hprev] at hready
      exact hready
    by_contra hopen
    have hle := hlast u task hlt htask hkey hc (Bool.eq_false_iff.mpr hopen)
    rcases Nat.lt_or_eq_of_le hle with hbefore | heq
    · exact hopen (h.order u p task prev htask hprev (hkey.trans hpk.symm) hbefore hc
        (h.begun p prev hprev hpdone hpc))
    · rw [heq, hprev, Option.some.injEq] at htask
      exact hopen (htask ▸ hpdone)
  refine h.toChained.goOn (f := ({ · with begun := true }))
    (fun _ => ⟨rfl, rfl, rfl, fun _ => rfl, id⟩) ?_
    (fun _ _ hopen hyes => absurd hyes (Bool.eq_false_iff.mp hopen)) h.sorted
    (fun u task htask hc hd _ => h.listed u task htask hc hd) fun start hstart => hstart
  intro task htask _ _ u other hother hkey
  rw [hmine, Option.some.injEq] at htask
  exact hquiet u other hother (htask ▸ hkey)

/-- A lane is cancelled as a whole: what still waits waits for a task that goes on. -/
theorem Ordered.cancelWhere (h : Ordered s) (htabled : Tabled s) (selected : K → Bool) :
    Ordered (Sequences.cancelWhere s selected) := by
  have hback : ∀ u task, (Sequences.cancelWhere s selected).tasks u = some task →
      ∃ before, s.tasks u = some before ∧ before.key = task.key ∧ before.begun = task.begun ∧
        before.done = task.done ∧ (task.cancelled = false → before = task ∧
          (selected task.key && (s.lanes task.key).any (·.contains u) && !task.done) = false) := by
    intro u task htask
    obtain ⟨before, hbefore, heq⟩ := cancelWhere_eq_some s htask
    split at heq
    · rw [heq]
      exact ⟨before, hbefore, rfl, rfl, rfl, fun hc => by cases hc⟩
    case isFalse hkept =>
      rw [heq]
      exact ⟨before, hbefore, rfl, rfl, rfl, fun _ => ⟨rfl, Bool.eq_false_iff.mpr hkept⟩⟩
  have hlane : ∀ (u : ℕ) (task : Sequences.Task K), (selected task.key &&
      (s.lanes task.key).any (·.contains u) && !task.done) = false → task.done = false →
      ∀ lane, s.lanes task.key = some lane → u ∈ lane →
        selected task.key = false := by
    intro u task hkept hdone lane hlane hu
    have hmem : (s.lanes task.key).any (·.contains u) = true := by
      rw [hlane, Option.any_some, List.contains_iff_mem]
      exact hu
    rw [hmem, hdone, Bool.and_true, Bool.not_false, Bool.and_true] at hkept
    exact hkept
  exact {
    order := by
      intro t₁ t₂ task other htask hother hkey hlt hc hb
      obtain ⟨task₁, htask₁, -, -, -, hsame⟩ := hback t₁ task htask
      obtain ⟨task₂, htask₂, hkey₂, hbegun₂, -, -⟩ := hback t₂ other hother
      obtain ⟨rfl, -⟩ := hsame hc
      exact h.order t₁ t₂ task₁ task₂ htask₁ htask₂ (hkey.trans hkey₂.symm) hlt hc
        (hbegun₂.trans hb)
    waiting := by
      intro u task htask hb hd hc
      obtain ⟨before, hbefore, -, -, -, hsame⟩ := hback u task htask
      obtain ⟨rfl, hkept⟩ := hsame hc
      obtain ⟨p, prev, hp, hprev, hpc, hpk, hlt, hlast⟩ := h.waiting u before hbefore hb hd hc
      have hunselected : selected before.key = false := by
        rcases h.listed u before hbefore hc hd with hin | hstart
        · obtain ⟨lane, hfound, hu⟩ := hin
          exact hlane u before hkept hd lane hfound hu
        · obtain ⟨start, hmem, heq⟩ := hstart
          obtain ⟨other, hother, -, -, hob, -⟩ := htabled.started start hmem
          rw [heq, hbefore, Option.some.injEq] at hother
          rw [← hother, hb] at hob
          cases hob
      refine ⟨p, prev, hp, ?_, hpc, hpk, hlt, ?_⟩
      · unfold Sequences.cancelWhere
        dsimp only
        rw [hprev, Option.map_some, hpk, hunselected, Bool.false_and, Bool.false_and,
          if_neg Bool.false_ne_true]
      · intro v other hv hother hok hoc hod
        obtain ⟨old, hold, -, -, -, hsameOld⟩ := hback v other hother
        obtain ⟨rfl, -⟩ := hsameOld hoc
        exact hlast v old hv hold hok hoc hod
    begun := by
      intro u task htask hd hc
      obtain ⟨before, hbefore, -, -, -, hsame⟩ := hback u task htask
      obtain ⟨rfl, -⟩ := hsame hc
      exact h.begun u before hbefore hd hc
    latest := by
      intro start hstart u task htask hkey
      obtain ⟨before, hbefore, hkey', -⟩ := hback u task htask
      exact h.latest start hstart u before hbefore (hkey'.trans hkey)
    running := by
      intro u hu
      obtain ⟨before, hbefore, hb⟩ := h.running u hu
      unfold Sequences.cancelWhere
      dsimp only
      rw [hbefore, Option.map_some]
      refine ⟨_, rfl, ?_⟩
      split
      · exact hb
      · exact hb
    sorted := by
      intro key lane hfound
      unfold Sequences.cancelWhere at hfound
      dsimp only at hfound
      split at hfound
      · cases hfound
      · exact h.sorted key lane hfound
    listed := by
      intro u task htask hc hd
      obtain ⟨before, hbefore, -, -, -, hsame⟩ := hback u task htask
      obtain ⟨rfl, hkept⟩ := hsame hc
      rcases h.listed u before hbefore hc hd with hin | hstart
      · obtain ⟨lane, hfound, hu⟩ := hin
        refine .inl ⟨lane, ?_, hu⟩
        unfold Sequences.cancelWhere
        dsimp only
        rw [hlane u before hkept hd lane hfound hu, if_neg Bool.false_ne_true]
        exact hfound
      · exact .inr hstart }

/-! ## A call of run -/

variable [DecidableEq K]

/-- The last task of a sorted lane was submitted last. -/
theorem le_getLast {lane : List ℕ} {last t : ℕ} (hsorted : lane.Pairwise (· < ·))
    (hlast : lane.getLast? = some last) (ht : t ∈ lane) : t ≤ last := by
  obtain ⟨init, rfl⟩ := List.getLast?_eq_some_iff.mp hlast
  rcases List.mem_append.mp ht with hinit | hend
  · exact Nat.le_of_lt ((List.pairwise_append.mp hsorted).2.2 t hinit last List.mem_cons_self)
  · exact Nat.le_of_eq (List.mem_singleton.mp hend)

omit [DecidableEq K] in
/-- The task that a new one waits for is the last in the lane, and has not ended. -/
theorem previousOf_eq_some {key : K} {p : ℕ} (h : previousOf s key = some p) :
    ∃ lane, s.lanes key = some lane ∧ lane.getLast? = some p ∧ s.isDone p = false := by
  unfold previousOf at h
  obtain ⟨lane, hlane, htail⟩ := Option.bind_eq_some_iff.mp h
  unfold pendingTail at htail
  rw [Option.filter_eq_some_iff, Bool.not_eq_true'] at htail
  exact ⟨lane, hlane, htail.1, htail.2⟩

omit [DecidableEq K] in
theorem isDone_eq {t : ℕ} {task : Sequences.Task K} (h : s.tasks t = some task) :
    s.isDone t = task.done := by
  unfold State.isDone
  rw [h]
  rfl

omit [DecidableEq K] in
/-- Where nothing is to wait for, all tasks of the source have ended. -/
theorem Ordered.quiet (h : Ordered s) (htabled : Tabled s) {key : K}
    (hprevious : previousOf s key = none) (hstarts : ∀ start ∈ s.starts, start.key ≠ key)
    {t : ℕ} {task : Sequences.Task K} (htask : s.tasks t = some task) (hkey : task.key = key)
    (hcancelled : task.cancelled = false) : task.done = true := by
  by_contra hopen
  rcases h.listed t task htask hcancelled (Bool.eq_false_iff.mpr hopen) with hin | hstart
  · obtain ⟨lane, hlane, hmem⟩ := hin
    rw [hkey] at hlane
    have hsome : lane.getLast? = some (lane.getLast (htabled.nonempty key lane hlane)) :=
      List.getLast?_eq_some_getLast _
    obtain ⟨last, hlast⟩ : ∃ last, lane.getLast? = some last := ⟨_, hsome⟩
    obtain ⟨tail, htail, htailKey, -, htailCancelled⟩ :=
      htabled.member key lane hlane last (List.mem_of_getLast? hlast)
    have hended : tail.done = true := by
      unfold previousOf pendingTail at hprevious
      rw [hlane, Option.bind_some, hlast, Option.filter_eq_none_iff] at hprevious
      have hnot := hprevious last rfl
      rw [isDone_eq htail, Bool.not_eq_true', Bool.not_eq_false] at hnot
      exact hnot
    rcases Nat.lt_or_eq_of_le (le_getLast (h.sorted key lane hlane) hlast hmem) with hlt | heq
    · exact hopen (h.order t last task tail htask htail (hkey.trans htailKey.symm) hlt hcancelled
        (h.begun last tail htail hended htailCancelled))
    · rw [heq, htail, Option.some.injEq] at htask
      exact hopen (htask ▸ hended)
  · obtain ⟨start, hmem, heq⟩ := hstart
    obtain ⟨other, hother, hmine, -⟩ := htabled.started start hmem
    rw [heq, htask, Option.some.injEq] at hother
    exact hstarts start hmem (by rw [← hmine, ← hother, hkey])

/-- During an eager start its source is run by that step only, and not detached. -/
def Disciplined (s : State K Owner) : Event K Owner → Prop
  | .run key detach _ => ∀ start ∈ s.starts, start.key = key →
    detach = false ∧ s.current = some start.task
  | _ => True

omit [DecidableEq K] in
/-- Such a step is not queued. -/
theorem Ordered.no_start (h : Ordered s) (htabled : Tabled s) {key : K} {detach : Bool}
    {owner : Option Owner} (hdisciplined : Disciplined s (.run key detach owner))
    (hqueued : runsInline s key detach = false) : ∀ start ∈ s.starts, start.key ≠ key := by
  intro start hstart hkey
  obtain ⟨hdetach, -⟩ := hdisciplined start hstart hkey
  obtain ⟨mine, hmine, hmineKey, hmineWatched, hbegun, -, -⟩ := htabled.started start hstart
  unfold runsInline at hqueued
  rw [hdetach] at hqueued
  cases hlane : s.lanes key with
  | none =>
    rw [hlane] at hqueued
    cases hqueued
  | some lane =>
    rw [hlane] at hqueued
    dsimp only at hqueued
    rw [Bool.or_eq_false_iff, Bool.not_false, Bool.and_true] at hqueued
    obtain ⟨p, hp⟩ := Option.isSome_iff_exists.mp (Option.isNone_eq_false_iff.mp hqueued.2)
    unfold pendingTail at hp
    rw [Option.filter_eq_some_iff, Bool.not_eq_true'] at hp
    obtain ⟨tail, htail, htailKey, hwatched, hcancelled⟩ :=
      htabled.member key lane hlane p (List.mem_of_getLast? hp.1)
    have hle := h.latest start hstart p tail htail (htailKey.trans hkey.symm)
    have hne : p ≠ start.task := by
      intro heq
      rw [heq, hmine, Option.some.injEq] at htail
      rw [← htail, hmineWatched] at hwatched
      cases hwatched
    have hended := h.order p start.task tail mine htail hmine
      ((htailKey.trans hkey.symm).trans hmineKey.symm) (Nat.lt_of_le_of_ne hle hne) hcancelled
      hbegun
    rw [isDone_eq htail, hended] at hp
    cases hp.2

omit [DecidableEq K] in
/-- A new task waits for the last one, or begins when all have ended. -/
theorem Ordered.add (h : Ordered s) (htabled : Tabled s) {key : K}
    (hstarts : ∀ start ∈ s.starts, start.key ≠ key) :
    Chained { s with
      tasks := Function.update s.tasks s.submitted (some
        { key, previous := previousOf s key, begun := (previousOf s key).isNone })
      submitted := s.submitted + 1 } := by
  have hsplit : ∀ u task, Function.update s.tasks s.submitted (some
        { key, previous := previousOf s key, begun := (previousOf s key).isNone }) u = some task →
      (u = s.submitted ∧ task =
        { key, previous := previousOf s key, begun := (previousOf s key).isNone }) ∨
      (u < s.submitted ∧ s.tasks u = some task) := by
    intro u task htask
    by_cases hu : u = s.submitted
    · rw [hu, Function.update_self, Option.some.injEq] at htask
      exact .inl ⟨hu, htask.symm⟩
    · rw [Function.update_of_ne hu] at htask
      exact .inr ⟨htabled.bound u task htask, htask⟩
  have hforth : ∀ u task, s.tasks u = some task → Function.update s.tasks s.submitted (some
      { key, previous := previousOf s key, begun := (previousOf s key).isNone }) u =
        some task := by
    intro u task htask
    rw [Function.update_of_ne (Nat.ne_of_lt (htabled.bound u task htask))]
    exact htask
  exact {
    order := by
      intro t u task other htask hother hkey hlt hc hb
      rcases hsplit t task htask with ⟨hnew, -⟩ | ⟨-, hold⟩
      · rcases hsplit u other hother with ⟨hnew', -⟩ | ⟨hbound, -⟩
        · omega
        · omega
      · rcases hsplit u other hother with ⟨-, rfl⟩ | ⟨-, hold'⟩
        · exact h.quiet htabled (Option.isNone_iff_eq_none.mp hb) hstarts hold hkey hc
        · exact h.order t u task other hold hold' hkey hlt hc hb
    waiting := by
      intro t task htask hb hd hc
      rcases hsplit t task htask with ⟨hnew, rfl⟩ | ⟨hbound, hold⟩
      · obtain ⟨p, hp⟩ := Option.isSome_iff_exists.mp (Option.isNone_eq_false_iff.mp hb)
        obtain ⟨lane, hlane, hlast, hopen⟩ := previousOf_eq_some hp
        obtain ⟨prev, hprev, hpk, -, hpc⟩ :=
          htabled.member key lane hlane p (List.mem_of_getLast? hlast)
        refine ⟨p, prev, hp, hforth p prev hprev, hpc, hpk, ?_, ?_⟩
        · rw [hnew]
          exact htabled.bound p prev hprev
        · intro u other hu hother hok hoc hod
          rcases hsplit u other hother with ⟨hnew', -⟩ | ⟨-, hold⟩
          · omega
          · rcases h.listed u other hold hoc hod with hin | hstart
            · obtain ⟨found, hfound, hmem⟩ := hin
              rw [hok] at hfound
              cases hlane.symm.trans hfound
              exact le_getLast (h.sorted key lane hlane) hlast hmem
            · obtain ⟨start, hmem, heq⟩ := hstart
              obtain ⟨mine, hmine, hmineKey, -⟩ := htabled.started start hmem
              rw [heq, hold, Option.some.injEq] at hmine
              exact absurd (by rw [← hmineKey, ← hmine, hok]) (hstarts start hmem)
      · obtain ⟨p, prev, hp, hprev, hpc, hpk, hlt, hlast⟩ := h.waiting t task hold hb hd hc
        refine ⟨p, prev, hp, hforth p prev hprev, hpc, hpk, hlt, ?_⟩
        intro u other hu hother hok hoc hod
        rcases hsplit u other hother with ⟨hnew', -⟩ | ⟨-, hold'⟩
        · omega
        · exact hlast u other hu hold' hok hoc hod
    begun := by
      intro t task htask hd hc
      rcases hsplit t task htask with ⟨-, rfl⟩ | ⟨-, hold⟩
      · cases hd
      · exact h.begun t task hold hd hc
    latest := by
      intro start hstart u other hother hok
      rcases hsplit u other hother with ⟨-, rfl⟩ | ⟨-, hold⟩
      · exact absurd hok.symm (hstarts start hstart)
      · exact h.latest start hstart u other hold hok
    running := by
      intro t ht
      obtain ⟨task, htask, hb⟩ := h.running t ht
      exact ⟨task, hforth t task htask, hb⟩ }

theorem Ordered.submit (h : Ordered s) (htabled : Tabled s) {key : K}
    (hstarts : ∀ start ∈ s.starts, start.key ≠ key) (owner : Option Owner) :
    Ordered (Sequences.submit s key owner) := by
  have hadd := h.add htabled hstarts
  have hold : ∀ u task, Function.update s.tasks s.submitted (some
        { key, previous := previousOf s key, begun := (previousOf s key).isNone }) u = some task →
      u ≠ s.submitted → s.tasks u = some task := by
    intro u task htask hu
    rw [Function.update_of_ne hu] at htask
    exact htask
  unfold Sequences.submit
  dsimp only
  split
  · exact {
      order := hadd.order
      waiting := hadd.waiting
      begun := hadd.begun
      latest := by
        intro start hstart u other hother hok
        rcases List.mem_cons.mp hstart with rfl | hbefore
        · by_cases hu : u = s.submitted
          · exact Nat.le_of_eq hu
          · exact Nat.le_of_lt (htabled.bound u other (hold u other hother hu))
        · exact hadd.latest start hbefore u other hother hok
      running := hadd.running
      sorted := h.sorted
      listed := by
        intro u task htask hc hd
        by_cases hu : u = s.submitted
        · exact .inr ⟨_, List.mem_cons_self, hu.symm⟩
        · rcases h.listed u task (hold u task htask hu) hc hd with hin | hstart
          · exact .inl hin
          · obtain ⟨start, hmem, heq⟩ := hstart
            exact .inr ⟨start, List.mem_cons_of_mem _ hmem, heq⟩ }
  · refine hadd.rewatch s.submitted true ?_ ?_ (fun start hstart => hstart)
    · intro other lane hlane
      dsimp only at hlane
      by_cases hother : other = key
      · rw [hother, Function.update_self, Option.some.injEq] at hlane
        rw [← hlane, List.pairwise_append]
        cases hbefore : s.lanes key with
        | none => exact ⟨List.Pairwise.nil, List.pairwise_singleton _ _, fun u hu => by cases hu⟩
        | some before =>
          refine ⟨h.sorted key before hbefore, List.pairwise_singleton _ _, fun u hu v hv => ?_⟩
          obtain ⟨task, htask, -⟩ := htabled.member key before hbefore u hu
          rw [List.mem_singleton.mp hv]
          exact htabled.bound u task htask
      · rw [Function.update_of_ne hother] at hlane
        exact h.sorted other lane hlane
    · intro u task htask hc hd
      dsimp only at htask ⊢
      by_cases hu : u = s.submitted
      · rw [hu, Function.update_self, Option.some.injEq] at htask
        rw [← htask]
        dsimp only
        rw [Function.update_self, hu]
        exact .inl ⟨_, rfl, List.mem_append_right _ List.mem_cons_self⟩
      · rcases h.listed u task (hold u task htask hu) hc hd with hin | hstart
        · obtain ⟨lane, hlane, hmem⟩ := hin
          left
          by_cases hkey : task.key = key
          · rw [hkey] at hlane ⊢
            rw [Function.update_self, hlane]
            exact ⟨_, rfl, List.mem_append_left _ hmem⟩
          · rw [Function.update_of_ne hkey]
            exact ⟨lane, hlane, hmem⟩
        · exact .inr hstart

theorem Ordered.leave (h : Ordered s) (htabled : Tabled s) : Ordered (Sequences.leave s) := by
  unfold Sequences.leave
  split
  case h_2 => exact h.setRunning _ fun t ht => by cases ht
  case h_1 start starts hstarts =>
    have hstart : start ∈ s.starts := hstarts ▸ List.mem_cons_self
    obtain ⟨mine, hmine, hmineKey, hmineWatched, -⟩ := htabled.started start hstart
    have hrest : ∀ other ∈ starts, other ∈ s.starts := fun other hother =>
      hstarts ▸ List.mem_cons_of_mem start hother
    refine h.toChained.rewatch start.task true ?_ ?_ hrest
    · intro key lane hlane
      dsimp only at hlane
      by_cases hkey : key = start.key
      · rw [hkey, Function.update_self, Option.some.injEq] at hlane
        rw [← hlane, List.pairwise_append]
        cases hbefore : s.lanes start.key with
        | none => exact ⟨List.Pairwise.nil, List.pairwise_singleton _ _, fun u hu => by cases hu⟩
        | some before =>
          refine ⟨h.sorted _ before hbefore, List.pairwise_singleton _ _, fun u hu v hv => ?_⟩
          -- the tasks in the lane are older than the one that started eagerly
          obtain ⟨task, htask, htaskKey, hwatched, -⟩ := htabled.member _ before hbefore u hu
          rw [List.mem_singleton.mp hv]
          refine Nat.lt_of_le_of_ne (h.latest start hstart u task htask htaskKey) fun heq => ?_
          rw [heq, hmine, Option.some.injEq] at htask
          rw [← htask, hmineWatched] at hwatched
          cases hwatched
      · rw [Function.update_of_ne hkey] at hlane
        exact h.sorted key lane hlane
    · intro u task htask hc hd
      dsimp only
      by_cases hu : u = start.task
      · rw [hu, hmine, Option.some.injEq] at htask
        rw [← htask, hmineKey, Function.update_self, hu]
        exact .inl ⟨_, rfl, List.mem_append_right _ List.mem_cons_self⟩
      · rcases h.listed u task htask hc hd with hin | hother
        · obtain ⟨lane, hlane, hmem⟩ := hin
          left
          by_cases hkey : task.key = start.key
          · rw [hkey] at hlane ⊢
            rw [Function.update_self, hlane]
            exact ⟨_, rfl, List.mem_append_left _ hmem⟩
          · rw [Function.update_of_ne hkey]
            exact ⟨lane, hlane, hmem⟩
        · obtain ⟨other, hmem, heq⟩ := hother
          rw [hstarts] at hmem
          rcases List.mem_cons.mp hmem with rfl | hlater
          · exact absurd heq.symm hu
          · exact .inr ⟨other, hlater, heq⟩

omit [DecidableEq K] in
theorem Ordered.finish (h : Ordered s) (htabled : Tabled s) : Ordered (Sequences.finish s) := by
  unfold Sequences.finish
  split
  case h_1 start starts hstarts =>
    obtain ⟨mine, hmine, -, -, hbegun, -⟩ :=
      htabled.started start (hstarts ▸ List.mem_cons_self)
    refine h.setDone hmine (.inl hbegun) starts ?_ ?_
    · intro other hother hne
      rw [hstarts] at hother
      exact (List.mem_cons.mp hother).resolve_left fun heq => hne (by rw [heq])
    · intro other hother
      rw [hstarts]
      exact List.mem_cons_of_mem start hother
  · split
    case h_1 t hrunning =>
      obtain ⟨mine, hmine, hbegun⟩ := h.running t hrunning
      have hdone := h.setDone hmine (.inl hbegun) s.starts
        (fun start hstart _ => hstart) fun start hstart => hstart
      exact hdone.setRunning none fun u hu => by cases hu
    · exact h.setRunning _ fun t ht => by cases ht

omit [DecidableEq K] in
theorem Ordered.enter (h : Ordered s) (code : Code) : Ordered (Sequences.enter s code) := by
  cases code with
  | other => exact h.setRunning _ fun t ht => by cases ht
  | task t =>
    unfold Sequences.enter
    dsimp only
    split
    · exact h
    case h_2 task htask =>
      split
      · exact h
      case isFalse hopen =>
        split
        case isTrue hbegun =>
          refine h.setRunning _ fun u hu => ?_
          cases hu
          exact ⟨task, htask, hbegun⟩
        case isFalse hbegun =>
          split
          case isTrue hcancelled =>
            exact h.setDone htask (.inr hcancelled) s.starts (fun start hstart _ => hstart)
              fun start hstart => hstart
          case isFalse hcancelled =>
            split
            case isTrue hready =>
              have hnext := h.setBegun htask (Bool.eq_false_iff.mpr hbegun)
                (Bool.eq_false_iff.mpr hopen) (Bool.eq_false_iff.mpr hcancelled) hready
              refine hnext.setRunning _ fun u hu => ?_
              cases hu
              exact ⟨_, setTask_self s htask _, rfl⟩
            · exact h

theorem Ordered.forget (h : Ordered s) (htabled : Tabled s) (t : ℕ) :
    Ordered (Sequences.forget s t) := by
  unfold Sequences.forget
  split
  · exact h
  case h_2 task htask =>
    split
    case isFalse => exact h
    case isTrue hdone =>
      rw [Bool.and_eq_true] at hdone
      -- what has not ended is another task
      have hother : ∀ u other, s.tasks u = some other → other.done = false → u ≠ t := by
        intro u other hfound hopen heq
        rw [heq, htask, Option.some.injEq] at hfound
        rw [← hfound, hdone.1] at hopen
        cases hopen
      have hlanes : (setTask s t ({ · with watched := false })).lanes task.key =
        s.lanes task.key := rfl
      dsimp only
      rw [hlanes]
      cases hlane : s.lanes task.key with
      | none => exact h.toChained.rewatch t false h.sorted h.listed fun start hstart => hstart
      | some lane =>
        have hkeep : ∀ u other, s.tasks u = some other → other.cancelled = false →
            other.done = false → (∃ found, s.lanes other.key = some found ∧ u ∈ found ∧
              (other.key = task.key → u ∈ lane.erase t)) ∨
              ∃ start ∈ s.starts, start.task = u := by
          intro u other hfound hc hd
          rcases h.listed u other hfound hc hd with hin | hstart
          · obtain ⟨found, hmine, hmem⟩ := hin
            refine .inl ⟨found, hmine, hmem, fun hkey => ?_⟩
            rw [hkey, hlane, Option.some.injEq] at hmine
            rw [← hmine] at hmem
            exact (htabled.nodup _ _ hlane).mem_erase_iff.mpr ⟨hother u other hfound hd, hmem⟩
          · exact .inr hstart
        dsimp only
        split
        case isTrue hempty =>
          refine h.toChained.rewatch t false ?_ ?_ fun start hstart => hstart
          · intro key found hfound
            by_cases hkey : key = task.key
            · rw [hkey, Function.update_self] at hfound
              cases hfound
            · rw [Function.update_of_ne hkey] at hfound
              exact h.sorted key found hfound
          · intro u other hfound hc hd
            rcases hkeep u other hfound hc hd with hin | hstart
            · obtain ⟨mine, hmine, hmem, hrest⟩ := hin
              have hkey : other.key ≠ task.key := by
                intro heq
                have hnone := hrest heq
                rw [hempty] at hnone
                cases hnone
              refine .inl ⟨mine, ?_, hmem⟩
              rw [Function.update_of_ne hkey]
              exact hmine
            · exact .inr hstart
        · refine h.toChained.rewatch t false ?_ ?_ fun start hstart => hstart
          · intro key found hfound
            by_cases hkey : key = task.key
            · rw [hkey, Function.update_self, Option.some.injEq] at hfound
              rw [← hfound]
              exact (h.sorted _ _ hlane).sublist List.erase_sublist
            · rw [Function.update_of_ne hkey] at hfound
              exact h.sorted key found hfound
          · intro u other hfound hc hd
            rcases hkeep u other hfound hc hd with hin | hstart
            · obtain ⟨mine, hmine, hmem, hrest⟩ := hin
              left
              by_cases hkey : other.key = task.key
              · rw [hkey, Function.update_self]
                exact ⟨_, rfl, hrest hkey⟩
              · rw [Function.update_of_ne hkey]
                exact ⟨mine, hmine, hmem⟩
            · exact .inr hstart

theorem Ordered.step (h : Ordered s) (htabled : Tabled s) (event : Event K Owner)
    (hdisciplined : Disciplined s event) : Ordered (Sequences.step s event) := by
  cases event with
  | enter code =>
    unfold Sequences.step
    dsimp only
    split
    · exact h.enter code
    · exact h
  | leave =>
    unfold Sequences.step
    dsimp only
    split
    · exact h.leave htabled
    · exact h
  | finish =>
    unfold Sequences.step
    dsimp only
    split
    · exact h.finish htabled
    · exact h
  | run key detach owner =>
    unfold Sequences.step
    dsimp only
    split
    case isTrue hrun =>
      rw [Bool.and_eq_true, Bool.not_eq_true'] at hrun
      exact h.submit htabled (h.no_start htabled hdisciplined hrun.2) owner
    · exact h
  | cancel key
  | cancelAll
  | cancelOwnedWhere retired =>
    unfold Sequences.step
    dsimp only
    split
    · exact h.cancelWhere htabled _
    · exact h
  | forget t =>
    unfold Sequences.step
    dsimp only
    split
    · exact h.forget htabled t
    · exact h

/-! ## Runs -/

/-- Every call is made as it should. -/
def AllDisciplined : State K Owner → List (Event K Owner) → Prop
  | _, [] => True
  | s, event :: events => Disciplined s event ∧ AllDisciplined (Sequences.step s event) events

theorem tabled_run (h : Tabled s) (events : List (Event K Owner)) :
    Tabled (events.foldl (Sequences.step · ·) s) := by
  induction events generalizing s with
  | nil => exact h
  | cons event events ih => exact ih (h.step event)

theorem Ordered.run (h : Ordered s) (htabled : Tabled s) {events : List (Event K Owner)}
    (hall : AllDisciplined s events) : Ordered (events.foldl (Sequences.step · ·) s) := by
  induction events generalizing s with
  | nil => exact h
  | cons event events ih =>
    exact ih (h.step htabled event hall.1) (htabled.step event) hall.2

/-- When a step is to be run inline, the tasks of its source have ended, or one of them asks. -/
theorem Ordered.inline (h : Ordered s) (htabled : Tabled s) {key : K} {detach : Bool}
    {owner : Option Owner} (hdisciplined : Disciplined s (.run key detach owner))
    (hinline : runsInline s key detach = true) :
    (∀ t task, s.tasks t = some task → task.key = key → task.cancelled = false →
      task.done = true) ∨
    ∃ t task, s.current = some t ∧ s.tasks t = some task ∧ task.key = key := by
  by_cases hstarts : ∀ start ∈ s.starts, start.key ≠ key
  · cases hlane : s.lanes key with
    | none =>
      left
      intro t task htask hkey hcancelled
      refine h.quiet htabled ?_ hstarts htask hkey hcancelled
      unfold previousOf
      rw [hlane]
      rfl
    | some lane =>
      unfold runsInline at hinline
      rw [hlane] at hinline
      dsimp only at hinline
      rw [Bool.or_eq_true, Bool.and_eq_true] at hinline
      rcases hinline with hcurrent | htail
      · obtain ⟨t, ht, hmem⟩ := (Option.any_eq_true _ _).mp hcurrent
        obtain ⟨task, htask, hkey, -⟩ :=
          htabled.member key lane hlane t (List.contains_iff_mem.mp hmem)
        exact .inr ⟨t, task, ht, htask, hkey⟩
      · left
        intro t task htask hkey hcancelled
        refine h.quiet htabled ?_ hstarts htask hkey hcancelled
        unfold previousOf
        rw [hlane]
        exact Option.isNone_iff_eq_none.mp htail.1
  · right
    obtain ⟨start, hstart, hkey⟩ : ∃ start ∈ s.starts, start.key = key := by
      by_contra hnone
      exact hstarts fun start hstart hkey => hnone ⟨start, hstart, hkey⟩
    obtain ⟨-, hcurrent⟩ := hdisciplined start hstart hkey
    obtain ⟨task, htask, hmine, -⟩ := htabled.started start hstart
    exact ⟨start.task, task, hcurrent, htask, hmine.trans hkey⟩

/-- A later task has not begun before an earlier one of its source ends, unless that is
cancelled. -/
def InOrder (s : State K Owner) : Prop :=
  ∀ t u task other, s.tasks t = some task → s.tasks u = some other → task.key = other.key →
    t < u → task.cancelled = false → other.begun = true → task.done = true

/-- A step is to be run inline where no task of its source that was not cancelled is left, or
where one of them asks. -/
def InlineWhenFree (s : State K Owner) (key : K) (detach : Bool) : Prop :=
  runsInline s key detach = true →
    (∀ t task, s.tasks t = some task → task.key = key → task.cancelled = false →
      task.done = true) ∨
    ∃ t task, s.current = some t ∧ s.tasks t = some task ∧ task.key = key

/-- A source is in the tables while a task of it has not ended, or its callback has still to
run. -/
def TabledWhileBusy (s : State K Owner) : Prop :=
  ∀ key, (s.lanes key).isSome = true ∨ (s.owners key).isSome = true →
    ∃ t task, s.tasks t = some task ∧ task.key = key ∧ (task.done = false ∨ task.watched = true)

omit [DecidableEq K] in
theorem tabled_busy (h : Tabled s) : TabledWhileBusy s := by
  intro key hkey
  obtain ⟨lane, hlane⟩ : ∃ lane, s.lanes key = some lane := by
    rcases hkey with hlane | howner
    · exact Option.isSome_iff_exists.mp hlane
    · obtain ⟨owner, howner⟩ := Option.isSome_iff_exists.mp howner
      exact h.owned key owner howner
  obtain ⟨t, ht⟩ := List.exists_mem_of_ne_nil lane (h.nonempty key lane hlane)
  obtain ⟨task, htask, hmine, hwatched, -⟩ := h.member key lane hlane t ht
  exact ⟨t, task, htask, hmine, .inr hwatched⟩

/-- After any events the tables name busy sources only, and if no eager start is disturbed, the
tasks of a source run in order, and a step runs inline where it may. -/
theorem sequences_in_order (events : List (Event K Owner)) :
    TabledWhileBusy (run events) ∧
    (AllDisciplined {} events → InOrder (run events) ∧
      ∀ key detach owner, Disciplined (run events) (.run key detach owner) →
        InlineWhenFree (run events) key detach) := by
  have htabled : Tabled (run events) := tabled_run tabled_start events
  refine ⟨tabled_busy htabled, fun hall => ?_⟩
  have hordered : Ordered (run events) := ordered_start.run tabled_start hall
  exact ⟨hordered.order, fun key detach owner hdisciplined =>
    hordered.inline htabled hdisciplined⟩

/-- A detached step that suspends, and another one that waits for it until it has ended. -/
def twoSteps : List (Event ℕ ℕ) :=
  [.enter .other, .run 0 true (some 7), .leave, .run 0 false none, .leave, .enter (.task 0),
    .finish, .forget 0, .enter (.task 1)]

theorem sequences_in_order_twoSteps :
    AllDisciplined {} twoSteps ∧ TabledWhileBusy (run twoSteps) ∧ InOrder (run twoSteps) ∧
      ((run twoSteps).tasks 1).map Task.begun = some true := by
  have hall : AllDisciplined {} twoSteps :=
    ⟨trivial, fun _ h => (by cases h), trivial, fun _ h => (by cases h), trivial, trivial, trivial,
      trivial, trivial, trivial⟩
  exact ⟨hall, (sequences_in_order twoSteps).1, ((sequences_in_order twoSteps).2 hall).1, rfl⟩

/-- A step that has ended before its callback ran, and one that was cancelled and has not
ended. -/
def endedStep : List (Event ℕ ℕ) :=
  [.enter .other, .run 0 true none, .leave, .leave, .enter (.task 0), .finish]

def cancelledStep : List (Event ℕ ℕ) :=
  [.enter .other, .run 0 true none, .leave, .cancel 0]

theorem not_sequences_in_order :
    (¬ ∀ events : List (Event ℕ ℕ), ∀ key, ((run events).lanes key).isSome = true →
      ∃ t task, (run events).tasks t = some task ∧ task.key = key ∧ task.done = false) ∧
    (¬ ∀ events : List (Event ℕ ℕ), ∀ key, runsInline (run events) key false = true →
      (∀ t task, (run events).tasks t = some task → task.key = key → task.done = true) ∨
      ∃ t task, (run events).current = some t ∧ (run events).tasks t = some task ∧
        task.key = key) := by
  constructor
  · intro hall
    obtain ⟨t, task, htask, -, hopen⟩ := hall endedStep 0 rfl
    have hbound := (tabled_run tabled_start endedStep).bound t task htask
    have hzero : t = 0 := Nat.lt_one_iff.mp hbound
    rw [hzero] at htask
    cases htask
    cases hopen
  · intro hall
    rcases hall cancelledStep 0 rfl with hdone | hcurrent
    · have hended := hdone 0 _ rfl rfl
      cases hended
    · obtain ⟨t, task, hcurrent, -⟩ := hcurrent
      cases hcurrent

end Keymasq.Action.SequenceOrder
