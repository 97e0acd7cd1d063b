import Mathlib.Data.List.Perm.Basic
import Keymasq.Superkey.Order

/-!
# Every press is released once

The entries still to be released are those in `_held_actions` and those that a
suspended emission of a tap has pressed. All others were pressed and then
released, once each.
-/

namespace Keymasq.Superkey.Accounting
open Foundation.Lists Machine Machine.SuperkeyMachine Superkey.Order

/-! ## Entries -/

/-- What has been executed of one entry. -/
def trace (out : Outputs) (serial : ℕ) : List Executed :=
  out.executed.filter fun x => x.entry.serial = serial

structure Accounted (out : Outputs) (opened : List Entry) : Prop where
  nodup : (opened.map (·.serial)).Nodup
  fresh : ∀ x ∈ out.executed, x.entry.serial < out.nextSerial
  opened_down : ∀ e ∈ opened, trace out e.serial = [⟨e, true⟩]
  closed_up : ∀ x ∈ out.executed, x.entry.serial ∉ opened.map (·.serial) →
    trace out x.entry.serial = [⟨x.entry, true⟩, ⟨x.entry, false⟩]

variable {out : Outputs} {m : SuperkeyMachine}

theorem Accounted.perm {opened opened' : List Entry} (h : Accounted out opened)
    (hperm : opened.Perm opened') : Accounted out opened' := by
  have hserials := hperm.map fun e : Entry => e.serial
  refine ⟨hserials.nodup_iff.mp h.nodup, h.fresh, fun e he => ?_, fun x hx hnot => ?_⟩
  · exact h.opened_down e (hperm.mem_iff.mpr he)
  · exact h.closed_up x hx fun hin => hnot (hserials.mem_iff.mp hin)

/-- An open entry has been executed, so its serial is in use. -/
theorem Accounted.serial_lt {opened : List Entry} (h : Accounted out opened) {e : Entry}
    (he : e ∈ opened) : e.serial < out.nextSerial := by
  have hmem : (⟨e, true⟩ : Executed) ∈ trace out e.serial := by
    rw [h.opened_down e he]
    exact List.mem_singleton_self _
  exact h.fresh _ (List.mem_of_mem_filter hmem)

theorem Accounted.down {opened : List Entry} (h : Accounted out opened)
    (action : SuperkeyActionData) (index : ℕ) :
    Accounted (out.down action index).1 ((out.down action index).2 :: opened) := by
  have hnew : ∀ e ∈ opened, e.serial ≠ out.nextSerial := fun e he =>
    Nat.ne_of_lt (h.serial_lt he)
  have hold : ∀ serial, serial ≠ out.nextSerial →
      trace (out.down action index).1 serial = trace out serial := by
    intro serial hne
    simp [trace, Outputs.down, List.filter_append, hne.symm]
  have hnone : trace out out.nextSerial = [] := by
    rw [trace, List.filter_eq_nil_iff]
    intro x hx
    have hlt := h.fresh x hx
    simp only [decide_eq_true_eq]
    omega
  have hentry : trace (out.down action index).1 out.nextSerial =
      [⟨(out.down action index).2, true⟩] := by
    have hsplit : trace (out.down action index).1 out.nextSerial =
        trace out out.nextSerial ++ [⟨(out.down action index).2, true⟩] := by
      simp [trace, Outputs.down, List.filter_append]
    rw [hsplit, hnone, List.nil_append]
  refine ⟨?_, fun x hx => ?_, fun e he => ?_, fun x hx hnot => ?_⟩
  · rw [List.map_cons, List.nodup_cons]
    refine ⟨fun hin => ?_, h.nodup⟩
    obtain ⟨e, he, heq⟩ := List.mem_map.mp hin
    exact hnew e he heq
  · show x.entry.serial < out.nextSerial + 1
    rcases List.mem_append.mp hx with hx | hx
    · have hlt := h.fresh x hx
      omega
    · rw [List.mem_singleton.mp hx]
      exact Nat.lt_succ_self _
  · rcases List.mem_cons.mp he with rfl | he
    · exact hentry
    · rw [hold e.serial (hnew e he)]
      exact h.opened_down e he
  · rw [List.map_cons, List.mem_cons, not_or] at hnot
    rcases List.mem_append.mp hx with hx | hx
    · rw [hold _ (Nat.ne_of_lt (h.fresh x hx))]
      exact h.closed_up x hx hnot.2
    · rw [List.mem_singleton.mp hx] at hnot
      exact absurd rfl hnot.1

theorem Accounted.up {e : Entry} {opened : List Entry} (h : Accounted out (e :: opened)) :
    Accounted (out.up e) opened := by
  have hnd := h.nodup
  rw [List.map_cons, List.nodup_cons] at hnd
  have hold : ∀ serial, serial ≠ e.serial → trace (out.up e) serial = trace out serial := by
    intro serial hne
    simp [trace, Outputs.up, List.filter_append, hne.symm]
  have hentry : trace (out.up e) e.serial = [⟨e, true⟩, ⟨e, false⟩] := by
    have hsplit : trace (out.up e) e.serial = trace out e.serial ++ [⟨e, false⟩] := by
      simp [trace, Outputs.up, List.filter_append]
    rw [hsplit, h.opened_down e List.mem_cons_self]
    rfl
  refine ⟨hnd.2, fun x hx => ?_, fun e' he' => ?_, fun x hx hnot => ?_⟩
  · rcases List.mem_append.mp hx with hx | hx
    · exact h.fresh x hx
    · rw [List.mem_singleton.mp hx]
      exact h.serial_lt List.mem_cons_self
  · have hne : e'.serial ≠ e.serial := fun heq => hnd.1 (heq ▸ List.mem_map_of_mem he')
    rw [hold _ hne]
    exact h.opened_down e' (List.mem_cons_of_mem _ he')
  · by_cases hserial : x.entry.serial = e.serial
    · have hmem : x ∈ trace (out.up e) e.serial := List.mem_filter.mpr ⟨hx, by simpa using hserial⟩
      rw [hentry] at hmem
      have hx_entry : x.entry = e := by
        rcases List.mem_cons.mp hmem with rfl | hmem
        · rfl
        · rw [List.mem_singleton.mp hmem]
      rw [hx_entry]
      exact hentry
    · rw [hold _ hserial]
      rcases List.mem_append.mp hx with hx | hx
      · refine h.closed_up x hx ?_
        rw [List.map_cons, List.mem_cons, not_or]
        exact ⟨hserial, hnot⟩
      · rw [List.mem_singleton.mp hx] at hserial
        exact absurd rfl hserial

/-! ## Entries of a suspended loop -/

/-- What a suspended emission of a tap has pressed and not released. -/
def bodyEntries : Body → List Entry
  | .tapping pressed _ => pressed
  | .tapSleep pressed => pressed
  | .tapReleasing left => left
  | _ => []

def optionEntries : Option Body → List Entry
  | none => []
  | some body => bodyEntries body

/-- A loop's step accounts for what it presses and releases. -/
def Accounts (r : Outputs × Option Body) (others : List Entry) : Prop :=
  Accounted r.1 (r.1.heldActions ++ (optionEntries r.2 ++ others))

theorem tapNext_accounts {pressed : List Entry} {others : List Entry}
    (h : Accounted out (out.heldActions ++ (pressed ++ others)))
    (rest : List (SuperkeyActionData × ℕ)) : Accounts (tapNext out pressed rest) others := by
  cases rest with
  | nil => exact h
  | cons a rest => exact (h.down a.1 a.2).perm List.perm_middle.symm

theorem tapRelease_accounts {left : List Entry} {others : List Entry}
    (h : Accounted out (out.heldActions ++ (left ++ others))) :
    Accounts (tapRelease out left) others := by
  cases left with
  | nil => exact h
  | cons e left => exact Accounted.up (h.perm List.perm_middle)

theorem pressNext_accounts {others : List Entry} (h : Accounted out (out.heldActions ++ others))
    (rest : List (SuperkeyActionData × ℕ)) :
    Accounts (pressNext out rest) others := by
  cases rest with
  | nil => exact h
  | cons a rest =>
    have hdown := h.down a.1 a.2
    exact ⟨hdown.nodup, hdown.fresh, hdown.opened_down, hdown.closed_up⟩

theorem releaseHeld_accounts {others : List Entry} (h : Accounted out (out.heldActions ++ others)) :
    Accounts (Machine.releaseHeld out) others := by
  unfold Machine.releaseHeld
  cases hheld : out.heldActions with
  | nil =>
    rw [hheld] at h
    show Accounted out (out.heldActions ++ others)
    rw [hheld]
    exact h
  | cons e held =>
    rw [hheld] at h
    have hup : Accounted (out.up e) _ := h.up
    exact ⟨hup.nodup, hup.fresh, hup.opened_down, hup.closed_up⟩

theorem start_accounts {others : List Entry} (h : Accounted out (out.heldActions ++ others))
    (step : Step) :
    Accounts (step.start out) others := by
  cases step with
  | tap actions => exact tapNext_accounts h _
  | press actions => exact pressNext_accounts h _
  | release => exact releaseHeld_accounts h

theorem resume_accounts {body : Body} {others : List Entry}
    (h : Accounted out (out.heldActions ++ (bodyEntries body ++ others))) :
    Accounts (body.resume out) others := by
  cases body with
  | holdTimeout => exact h
  | doubleTapTimeout => exact h
  | waiting step => exact start_accounts h step
  | tapping pressed rest => exact tapNext_accounts h rest
  | tapSleep pressed => exact tapRelease_accounts h
  | tapReleasing left => exact tapRelease_accounts h
  | pressing rest => exact pressNext_accounts h rest
  | releasing => exact releaseHeld_accounts h

/-- Suspended in a release of a tap with more of them to come. -/
def betweenReleases : Body → Bool
  | .tapReleasing (_ :: _) => true
  | _ => false

/-- Only a cancellation between the releases of a tap loses entries. -/
theorem cancel_accounts {body : Body} {others : List Entry}
    (h : Accounted out (out.heldActions ++ (bodyEntries body ++ others)))
    (hbetween : betweenReleases body = false) : Accounts (body.cancel out) others := by
  cases body with
  | holdTimeout => exact h
  | doubleTapTimeout => exact h
  | waiting step => exact h
  | pressing rest => exact h
  | releasing => exact h
  | tapping pressed rest => exact tapRelease_accounts h
  | tapSleep pressed => exact tapRelease_accounts h
  | tapReleasing left =>
    cases left with
    | nil => exact h
    | cons e left => cases hbetween

/-! ## The machine -/

def taskEntries (tasks : List Task) : List Entry := tasks.flatMap fun t => bodyEntries t.body

/-- All entries that are still to be released are accounted for. -/
def Balanced (m : SuperkeyMachine) : Prop :=
  Accounted m.outputs (m.outputs.heldActions ++ (taskEntries m.tasks ++ taskEntries m.lane))

theorem taskEntries_append (tasks tasks' : List Task) :
    taskEntries (tasks ++ tasks') = taskEntries tasks ++ taskEntries tasks' :=
  List.flatMap_append

theorem taskEntries_map {f : Task → Task} (hf : ∀ t, (f t).body = t.body) (tasks : List Task) :
    taskEntries (tasks.map f) = taskEntries tasks := by
  rw [taskEntries, taskEntries, List.flatMap_map]
  simp only [hf]

/-- Once its step is accounted for, a task may be suspended in it or go past it. -/
theorem balanced_proceed {id : ℕ} {after : After} {body : Option Body}
    (h : Accounts (m.outputs, body) (taskEntries m.tasks ++ taskEntries m.lane)) :
    Balanced (m.proceed id after body) := by
  cases body with
  | some b =>
    refine Accounted.perm h (List.Perm.append_left _ ?_)
    show (bodyEntries b ++ (taskEntries m.tasks ++ taskEntries m.lane)).Perm
      (taskEntries (m.tasks ++ [{ id := id, body := b, after := after }]) ++ taskEntries m.lane)
    rw [taskEntries_append, ← List.append_assoc]
    refine List.Perm.append_right _ ?_
    simpa [taskEntries] using List.perm_append_comm
  | none =>
    cases after with
    | done => exact h
    | sequence => exact h
    | becomeIdle => exact h
    | releaseHeld =>
      have hrelease := releaseHeld_accounts h
      simp only [proceed]
      split
      · rename_i hnone
        rw [Accounts, hnone] at hrelease
        exact hrelease
      · rename_i b hsome
        rw [Accounts, hsome, releaseHeld_body hsome] at hrelease
        rw [releaseHeld_body hsome]
        show Accounted _ (_ ++ (taskEntries (m.tasks ++ _) ++ taskEntries m.lane))
        rw [taskEntries_append]
        simpa [taskEntries, bodyEntries, optionEntries] using hrelease

theorem balanced_runSequence (h : Balanced m) (id : ℕ) (step : Step) (detach : Bool)
    (after : After) : Balanced (m.runSequence id step detach after) := by
  have hstart := start_accounts h step
  rcases runSequence_cases m id step detach after with
    ⟨-, hlane, heq⟩ | ⟨-, -, heq⟩ | ⟨-, heq⟩
  · rw [heq]
    refine balanced_proceed ?_
    rw [hlane] at hstart
    refine Accounted.perm hstart (List.Perm.append_left _ ?_)
    show (optionEntries (step.start m.outputs).2 ++ (taskEntries m.tasks ++ taskEntries [])).Perm
      ([] ++ (taskEntries m.tasks ++ taskEntries ((step.start m.outputs).2.toList.map _)))
    cases (step.start m.outputs).2 with
    | none => simp [optionEntries, taskEntries]
    | some b => simpa [optionEntries, taskEntries] using List.perm_append_comm
  · rw [heq]
    refine balanced_proceed ?_
    show Accounted m.outputs (m.outputs.heldActions ++ (taskEntries m.tasks ++
      taskEntries (m.lane ++ [_])))
    have hwaiting : taskEntries [⟨m.nextId, .waiting step, .sequence, false⟩] = [] := rfl
    rw [taskEntries_append, hwaiting, List.append_nil]
    exact h
  · rw [heq]
    exact balanced_proceed hstart

theorem balanced_resumeTask_loop (h : Balanced m) {t : Task} {rest : List Task}
    (hperm : m.tasks.Perm (t :: rest)) :
    Accounted m.outputs (m.outputs.heldActions ++
      (bodyEntries t.body ++ (taskEntries rest ++ taskEntries m.lane))) := by
  refine Accounted.perm h (List.Perm.append_left _ ?_)
  rw [← List.append_assoc]
  exact (hperm.flatMap_right _).append_right _

end Keymasq.Superkey.Accounting
