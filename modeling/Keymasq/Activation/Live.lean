import Keymasq.Activation.Handlers
import Keymasq.Foundation.Transition

/-!
# Tracked activations stay live

An activation the session has marked as tracked has a live tracker in the
daemon, or its expiry is under way, as long as no TRACK command is sent for an
activation that has been overtaken.
-/

namespace Keymasq.Activation.Live
open Foundation Foundation.Strings Foundation.Transition Tracker Handlers Keymasq.Profile.Model

/-- Handling the command could take the tracker of `x` away from the profile `p`. -/
def Disturbs (p x : String) : Command → Prop
  | .trackProfileActivation q y _ _ => q = p ∧ y ≠ x
  | .cancelProfileActivation _ y => y = x

def Clear (p x : String) (requests : List Request) : Prop :=
  ∀ q ∈ requests, ¬Disturbs p x q.command

/-- The activation will expire: it has a tracker that nothing under way takes away, or its
expiry has been reported. -/
def Kept (sys : System) (p x : String) : Prop :=
  Reported sys.daemon p x ∨ (Live sys.daemon p x ∧ Clear p x sys.requests)

def IsTrack (p x : String) (command : Command) : Prop :=
  ∃ triggerId d, command = .trackProfileActivation p x triggerId d

/-- The TRACK command of request `r` is under way, and nothing behind it disturbs it. -/
def Pending (sys : System) (p x : String) (r : ℕ) : Prop :=
  ∃ before request after, sys.requests = before ++ request :: after ∧ request.requestId = r ∧
    IsTrack p x request.command ∧ (∀ q ∈ before, q.requestId ≠ r) ∧
    (∀ q ∈ sys.responses, q.requestId ≠ r) ∧ Clear p x after

def NoTrack (segments : List Segment) : Prop := ∀ a, Segment.track a ∉ segments

/-- A command names an activation that was made for its profile, and a CANCEL names one that
the session no longer has. -/
def WellFormed (sys : System) : Command → Prop
  | .trackProfileActivation p x _ d => sys.issued.get? x = some p ∧ ∃ d', d.parse = some d'
  | .cancelProfileActivation _ x => (∃ p, sys.issued.get? x = some p) ∧
      ∀ p a, sys.activations.get? p = some a → a.activationId ≠ x

/-- What holds between the tables of the session and the daemon and the messages under way. -/
structure Sound (sys : System) : Prop where
  named : ∀ p a, sys.activations.get? p = some a →
    a.profileName = p ∧ sys.issued.get? a.activationId = some p
  issued : ∀ x p, sys.issued.get? x = some p → (strip x = x ∧ x ≠ "") ∧ (strip p = p ∧ p ≠ "")
  shape : ∀ task ∈ sys.tasks, NoTrack task.rest ∨
    ∃ a, task.awaiting = .reevaluation ∧ task.rest = [.track a]
  planned : ∀ task ∈ sys.tasks, ∀ a, Segment.track a ∈ task.rest →
    sys.issued.get? a.activationId = some a.profileName
  waiting : ∀ task ∈ sys.tasks, ∀ r a, task.awaiting = .trackAnswer r a →
    sys.issued.get? a.activationId = some a.profileName
  requestIds : ∀ q ∈ sys.requests, q.requestId ≤ sys.requestCounter
  responseIds : ∀ q ∈ sys.responses, q.requestId ≤ sys.requestCounter
  commands : ∀ q ∈ sys.requests, WellFormed sys q.command
  coherent : Coherent sys.daemon
  owned : OwnedBy sys.daemon sys.issued.get?
  marked : ∀ p a, sys.activations.get? p = some a → a.tracked = true →
    Kept sys p a.activationId
  awaited : ∀ task ∈ sys.tasks, ∀ r a b, task.awaiting = .trackAnswer r a →
    sys.activations.get? a.profileName = some b → b.activationId = a.activationId →
    Pending sys a.profileName a.activationId r ∨ Kept sys a.profileName a.activationId

theorem sound_start : Sound {} where
  named _ _ h := absurd h Dict.not_get?_empty
  issued _ _ h := absurd h Dict.not_get?_empty
  shape _ h := absurd h List.not_mem_nil
  planned _ h := absurd h List.not_mem_nil
  waiting _ h := absurd h List.not_mem_nil
  requestIds _ h := absurd h List.not_mem_nil
  responseIds _ h := absurd h List.not_mem_nil
  commands _ h := absurd h List.not_mem_nil
  coherent := coherent_empty
  owned h := absurd h Dict.not_get?_empty
  marked _ _ h := absurd h Dict.not_get?_empty
  awaited _ h := absurd h List.not_mem_nil

/-! ## What a handler does between two awaits -/

variable {sys sys' : System} {t : ProfileActivationTracker} {taskId : ℕ}

/-- Activations and handlers may go at any time. -/
theorem Sound.shrink (h : Sound sys) {activations : Dict String RuntimeProfileActivation}
    {tasks : List Task}
    (hactivations : ∀ p a, activations.get? p = some a → sys.activations.get? p = some a)
    (htasks : ∀ task ∈ tasks, task ∈ sys.tasks) :
    Sound { sys with activations := activations, tasks := tasks } where
  named p a hget := h.named p a (hactivations p a hget)
  issued := h.issued
  shape task ht := h.shape task (htasks task ht)
  planned task ht := h.planned task (htasks task ht)
  waiting task ht := h.waiting task (htasks task ht)
  requestIds := h.requestIds
  responseIds := h.responseIds
  commands q hq := by
    have hwell := h.commands q hq
    cases hcommand : q.command with
    | trackProfileActivation p x triggerId d =>
      rw [hcommand] at hwell
      exact hwell
    | cancelProfileActivation p x =>
      rw [hcommand] at hwell
      exact ⟨hwell.1, fun p a hget => hwell.2 p a (hactivations p a hget)⟩
  coherent := h.coherent
  owned := h.owned
  marked p a hget := h.marked p a (hactivations p a hget)
  awaited task ht r a b hawait hget := h.awaited task (htasks task ht) r a b hawait
    (hactivations _ _ hget)

theorem Sound.erase (h : Sound sys) (p : String) :
    Sound { sys with activations := sys.activations.erase p } := by
  refine h.shrink (fun q a hget => ?_) fun task ht => ht
  rw [Dict.get?_erase] at hget
  split at hget
  · cases hget
  · exact hget

theorem Sound.finish (h : Sound sys) (taskId : ℕ) : Sound (sys.finish taskId) :=
  h.shrink (fun _ _ hget => hget) fun _ ht => (List.mem_filter.mp ht).1

theorem Sound.suspend (h : Sound sys) (p : String) {awaiting : Await} {rest : List Segment}
    (hawait : ∀ r a, awaiting ≠ .trackAnswer r a)
    (hshape : NoTrack rest ∨ ∃ a, awaiting = .reevaluation ∧ rest = [.track a])
    (hplanned : ∀ a, Segment.track a ∈ rest → sys.issued.get? a.activationId = some a.profileName) :
    Sound (sys.suspend p awaiting rest) where
  named := h.named
  issued := h.issued
  shape task ht := by
    rcases List.mem_append.mp ht with ht | ht
    · exact h.shape task ht
    · rw [List.mem_singleton.mp ht]
      exact hshape
  planned task ht := by
    rcases List.mem_append.mp ht with ht | ht
    · exact h.planned task ht
    · rw [List.mem_singleton.mp ht]
      exact hplanned
  waiting task ht r a heq := by
    rcases List.mem_append.mp ht with ht | ht
    · exact h.waiting task ht r a heq
    · rw [List.mem_singleton.mp ht] at heq
      exact absurd heq (hawait r a)
  requestIds := h.requestIds
  responseIds := h.responseIds
  commands := h.commands
  coherent := h.coherent
  owned := h.owned
  marked := h.marked
  awaited task ht r a b heq := by
    rcases List.mem_append.mp ht with ht | ht
    · exact h.awaited task ht r a b heq
    · rw [List.mem_singleton.mp ht] at heq
      exact absurd heq (hawait r a)

theorem Clear.append {p x : String} {requests : List Request} {request : Request}
    (h : Clear p x requests) (hr : ¬Disturbs p x request.command) :
    Clear p x (requests ++ [request]) := by
  intro q hq
  rcases List.mem_append.mp hq with hq | hq
  · exact h q hq
  · rw [List.mem_singleton.mp hq]
    exact hr

theorem Kept.send {p x : String} (h : Kept sys p x) {command : Command}
    (hc : ¬Disturbs p x command) : Kept (sys.send command) p x :=
  h.imp id fun hlive => ⟨hlive.1, hlive.2.append hc⟩

theorem Pending.send {p x : String} {r : ℕ} (h : Pending sys p x r) {command : Command}
    (hc : ¬Disturbs p x command) : Pending (sys.send command) p x r := by
  obtain ⟨before, request, after, heq, hid, htrack, hbefore, hresponses, hclear⟩ := h
  refine ⟨before, request, after ++ [⟨sys.requestCounter + 1, command⟩], ?_, hid, htrack, hbefore,
    hresponses, hclear.append hc⟩
  simp only [System.send, heq, List.append_assoc, List.cons_append]

/-- A command is sent: it disturbs no current activation that relies on its tracker. -/
theorem Sound.send (h : Sound sys) {command : Command} (hwell : WellFormed sys command)
    (hmarked : ∀ p a, sys.activations.get? p = some a → a.tracked = true →
      Disturbs p a.activationId command → Reported sys.daemon p a.activationId)
    (hawaited : ∀ task ∈ sys.tasks, ∀ r a b, task.awaiting = .trackAnswer r a →
      sys.activations.get? a.profileName = some b → b.activationId = a.activationId →
      Disturbs a.profileName a.activationId command →
      Reported sys.daemon a.profileName a.activationId) :
    Sound (sys.send command) where
  named := h.named
  issued := h.issued
  shape := h.shape
  planned := h.planned
  waiting := h.waiting
  requestIds q hq := by
    rcases List.mem_append.mp hq with hq | hq
    · exact Nat.le_succ_of_le (h.requestIds q hq)
    · rw [List.mem_singleton.mp hq]
      exact Nat.le_refl _
  responseIds q hq := Nat.le_succ_of_le (h.responseIds q hq)
  commands q hq := by
    rcases List.mem_append.mp hq with hq | hq
    · exact h.commands q hq
    · rw [List.mem_singleton.mp hq]
      exact hwell
  coherent := h.coherent
  owned := h.owned
  marked p a hget htracked := by
    by_cases hd : Disturbs p a.activationId command
    · exact Or.inl (hmarked p a hget htracked hd)
    · exact (h.marked p a hget htracked).send hd
  awaited task ht r a b hawait hget hid := by
    by_cases hd : Disturbs a.profileName a.activationId command
    · exact Or.inr (Or.inl (hawaited task ht r a b hawait hget hid hd))
    · exact (h.awaited task ht r a b hawait hget hid).imp (·.send hd) (·.send hd)

/-- CANCEL is sent for an activation the session has just dropped. -/
theorem Sound.sendCancel (h : Sound sys) {p : String} {a : RuntimeProfileActivation}
    (hget : sys.activations.get? p = some a) :
    Sound ({ sys with activations := sys.activations.erase p }.send
      (.cancelProfileActivation p a.activationId)) := by
  have hgone : ∀ q b, (sys.activations.erase p).get? q = some b →
      b.activationId ≠ a.activationId := by
    intro q b hb heq
    rw [Dict.get?_erase] at hb
    split at hb
    · cases hb
    · rename_i hne
      have hq := (h.named q b hb).2
      rw [heq, (h.named p a hget).2] at hq
      exact hne (Option.some.inj hq).symm
  refine (h.erase p).send ⟨⟨p, (h.named p a hget).2⟩, hgone⟩ ?_ ?_
  · exact fun q b hb _ hd => absurd hd.symm (hgone q b hb)
  · exact fun task ht r b c _ hc hid hd => absurd (hid.trans hd.symm) (hgone _ c hc)

theorem Sound.proceed (h : Sound sys) (p : String) {segments : List Segment}
    (hno : NoTrack segments) : Sound (sys.proceed p segments) := by
  have hrest : ∀ {a rest}, NoTrack (a :: rest) → NoTrack rest :=
    fun hno b hb => hno b (List.mem_cons_of_mem _ hb)
  induction segments with
  | nil => exact h
  | cons segment rest ih =>
    cases segment with
    | cancel reevaluate =>
      cases hget : sys.activations.get? p with
      | none =>
        simp only [System.proceed, hget]
        exact ih (hrest hno)
      | some a =>
        simp only [System.proceed, hget]
        have hno' : NoTrack (if reevaluate then Segment.reevaluate :: rest else rest) := by
          split
          · intro b hb
            rcases List.mem_cons.mp hb with hb | hb
            · cases hb
            · exact hrest hno b hb
          · exact hrest hno
        exact (h.sendCancel hget).suspend p nofun (Or.inl hno') fun b hb => absurd hb (hno' b)
    | setProfileEnabled actionType enabled =>
      exact h.suspend p nofun (Or.inl (hrest hno)) fun b hb => absurd hb (hrest hno b)
    | reevaluate =>
      exact h.suspend p nofun (Or.inl (hrest hno)) fun b hb => absurd hb (hrest hno b)
    | track a => exact absurd List.mem_cons_self (hno a)

theorem Sound.trackFailed (h : Sound sys) (a : RuntimeProfileActivation) :
    Sound (sys.trackFailed a) := by
  unfold System.trackFailed
  split
  · exact (h.erase a.profileName).suspend a.profileName nofun (Or.inl nofun) nofun
  · exact h

/-- An activation may be marked once its expiry is certain. -/
theorem Sound.trackSucceeded (h : Sound sys) {a : RuntimeProfileActivation}
    (hkept : ∀ b, sys.activations.get? a.profileName = some b →
      b.activationId = a.activationId → Kept sys a.profileName a.activationId) :
    Sound (sys.trackSucceeded a) := by
  unfold System.trackSucceeded
  cases hget : sys.activations.get? a.profileName with
  | none => exact h
  | some current =>
    simp only
    split
    · rename_i hid
      let marked : RuntimeProfileActivation := { current with tracked := true }
      -- the entry keeps its id and its profile
      have hsame : ∀ q b, (sys.activations.insert a.profileName marked).get? q = some b →
          ∃ c, sys.activations.get? q = some c ∧ c.activationId = b.activationId ∧
            c.profileName = b.profileName ∧ (b.tracked = true →
              c.tracked = true ∨ (q = a.profileName ∧ b.activationId = a.activationId)) := by
        intro q b hb
        rw [Dict.get?_insert] at hb
        split at hb
        · cases hb
          rename_i hq
          exact ⟨current, hq ▸ hget, rfl, rfl, fun _ => Or.inr ⟨hq, hid⟩⟩
        · exact ⟨b, hb, rfl, rfl, Or.inl⟩
      refine { h with named := ?_, commands := ?_, marked := ?_, awaited := ?_ }
      · intro q b hb
        obtain ⟨c, hc, hcid, hprofile, -⟩ := hsame q b hb
        rw [← hcid, ← hprofile]
        exact h.named q c hc
      · intro request hrequest
        have hwell := h.commands request hrequest
        cases hcommand : request.command with
        | trackProfileActivation p x triggerId d =>
          rw [hcommand] at hwell
          exact hwell
        | cancelProfileActivation p x =>
          rw [hcommand] at hwell
          refine ⟨hwell.1, fun q b hb => ?_⟩
          obtain ⟨c, hc, hcid, -, -⟩ := hsame q b hb
          exact hcid ▸ hwell.2 q c hc
      · intro q b hb htracked
        obtain ⟨c, hc, hcid, -, hcases⟩ := hsame q b hb
        rcases hcases htracked with hct | ⟨rfl, hbid⟩
        · exact hcid ▸ h.marked q c hc hct
        · exact hbid ▸ hkept current hget hid
      · intro task ht r a' b hawait hb hbid
        obtain ⟨c, hc, hcid, -, -⟩ := hsame _ b hb
        exact h.awaited task ht r a' c hawait hc (hcid.trans hbid)
    · exact h

/-- TRACK is sent for an activation that has not been overtaken. -/
theorem Sound.sendTrack (h : Sound sys) (p : String) {a : RuntimeProfileActivation}
    (hissued : sys.issued.get? a.activationId = some a.profileName)
    (horder : overtaken sys a = false) : Sound (sys.proceed p [.track a]) := by
  simp only [System.proceed]
  cases hparse : a.deactivation.parse with
  | none => exact h.trackFailed a
  | some d =>
    have hreported : ∀ b, sys.activations.get? a.profileName = some b →
        b.activationId ≠ a.activationId → trackSent sys b = true →
        Reported sys.daemon a.profileName b.activationId := by
      intro b hb hne hsent
      show _ ∈ sys.daemon.requested
      simpa [overtaken, hb, hne, hsent] using horder
    have hsend : Sound (sys.send (.trackProfileActivation a.profileName a.activationId
        a.triggerId d)) := by
      refine h.send ⟨hissued, d, ProfileDeactivationPolicy.parse_parse hparse⟩ ?_ ?_
      · rintro p b hb htracked ⟨rfl, hne⟩
        exact hreported b hb hne.symm (by simp only [trackSent, htracked, Bool.true_or])
      · rintro task ht r a' b hawait hb hid ⟨hprofile, hne⟩
        rw [← hprofile] at hb ⊢
        rw [← hid]
        refine hreported b hb (hid ▸ hne.symm) ?_
        simp only [trackSent, Bool.or_eq_true, List.any_eq_true]
        exact Or.inr ⟨task, ht, by simp only [hawait, hid, decide_true]⟩
    -- the handler now waits for the answer to the command at the end of the queue
    have hpending : Pending (sys.send (.trackProfileActivation a.profileName a.activationId
        a.triggerId d)) a.profileName a.activationId (sys.requestCounter + 1) := by
      refine ⟨sys.requests, _, [], rfl, rfl, ⟨a.triggerId, d, rfl⟩, fun q hq => ?_,
        fun q hq => ?_, nofun⟩
      · have hle := h.requestIds q hq
        omega
      · have hle := h.responseIds q hq
        omega
    refine { hsend with shape := ?_, planned := ?_, waiting := ?_, awaited := ?_ }
    · intro task ht
      rcases List.mem_append.mp ht with ht | ht
      · exact h.shape task ht
      · rw [List.mem_singleton.mp ht]
        exact Or.inl nofun
    · intro task ht
      rcases List.mem_append.mp ht with ht | ht
      · exact h.planned task ht
      · rw [List.mem_singleton.mp ht]
        exact nofun
    · intro task ht r a' heq
      rcases List.mem_append.mp ht with ht | ht
      · exact h.waiting task ht r a' heq
      · rw [List.mem_singleton.mp ht] at heq
        cases heq
        exact hissued
    · intro task ht r a' b heq hb hid
      rcases List.mem_append.mp ht with ht | ht
      · exact hsend.awaited task ht r a' b heq hb hid
      · rw [List.mem_singleton.mp ht] at heq
        cases heq
        exact Or.inl hpending

/-! ## Messages arrive -/

theorem Sound.dropResponse (h : Sound sys) (response : Response) :
    Sound { sys with responses := sys.responses.erase response } where
  named := h.named
  issued := h.issued
  shape := h.shape
  planned := h.planned
  waiting := h.waiting
  requestIds := h.requestIds
  responseIds q hq := h.responseIds q (List.mem_of_mem_erase hq)
  commands := h.commands
  coherent := h.coherent
  owned := h.owned
  marked := h.marked
  awaited task ht r a b hawait hb hid := by
    rcases h.awaited task ht r a b hawait hb hid with hpending | hkept
    · obtain ⟨before, request, after, heq, hr, htrack, hbefore, hresponses, hclear⟩ := hpending
      exact Or.inl ⟨before, request, after, heq, hr, htrack, hbefore,
        fun q hq => hresponses q (List.mem_of_mem_erase hq), hclear⟩
    · exact Or.inr hkept

theorem Sound.stepAnswered (h : Sound sys) {response : Response}
    (hstep : stepAnswered sys response = some sys') : Sound sys' := by
  unfold Handlers.stepAnswered at hstep
  split at hstep
  · rename_i hmem
    have hdrop := h.dropResponse response
    cases hfind : sys.tasks.find? (awaits response.requestId) with
    | none =>
      simp only [hfind] at hstep
      cases hstep
      exact hdrop
    | some task =>
      have ht : task ∈ sys.tasks := List.mem_of_find?_eq_some hfind
      have hawaits := List.find?_some hfind
      have hfinish := hdrop.finish task.taskId
      simp only [hfind] at hstep
      cases hawait : task.awaiting with
      | configWrite actionType enabled => simp only [hawait, reduceCtorEq] at hstep
      | reevaluation => simp only [hawait, reduceCtorEq] at hstep
      | cancelAnswer r =>
        simp only [hawait, Option.some.injEq] at hstep
        rw [← hstep]
        refine hfinish.proceed _ ((h.shape task ht).resolve_right ?_)
        rintro ⟨a, heq, -⟩
        rw [hawait] at heq
        cases heq
      | trackAnswer r a =>
        simp only [hawait] at hstep
        split at hstep
        · cases hstep
          exact hfinish.trackFailed a
        · cases hstep
          refine hfinish.trackSucceeded fun b hb hid => ?_
          have hr : r = response.requestId := by
            simpa only [awaits, hawait, decide_eq_true_eq] using hawaits
          rcases h.awaited task ht r a b hawait hb hid with hpending | hkept
          · obtain ⟨-, -, -, -, -, -, -, hresponses, -⟩ := hpending
            exact absurd hr.symm (hresponses response hmem)
          · exact hkept
  · cases hstep

/-- What happens in the daemon on its own only makes trackers expire. -/
theorem Sound.expires (h : Sound sys) {daemon : ProfileActivationTracker}
    (hexpires : Expires sys.daemon daemon) : Sound { sys with daemon := daemon } := by
  have hkept : ∀ {p x}, Kept sys p x → Kept { sys with daemon := daemon } p x := by
    rintro p x (hr | ⟨hlive, hclear⟩)
    · exact Or.inl (hexpires.reported hr)
    · rcases hexpires.live hlive with hlive | hr
      · exact Or.inr ⟨hlive, hclear⟩
      · exact Or.inl hr
  exact { h with
    coherent := hexpires.coherent
    owned := hexpires.owned h.owned
    marked := fun p a hget htracked => hkept (h.marked p a hget htracked)
    awaited := fun task ht r a b hawait hget hid =>
      (h.awaited task ht r a b hawait hget hid).imp id hkept }

theorem Clear.tail {p x : String} {request : Request} {requests : List Request}
    (h : Clear p x (request :: requests)) : Clear p x requests :=
  fun q hq => h q (List.mem_cons_of_mem _ hq)

/-- What handling a command does to the trackers. -/
structure Handled (t t' : ProfileActivationTracker) (owner : String → Option String)
    (command : Command) : Prop where
  coherent : Coherent t'
  owned : OwnedBy t' owner
  reported : ∀ {p x}, Reported t p x → Reported t' p x
  live : ∀ {p x}, Live t p x → ¬Disturbs p x command → Live t' p x ∨ Reported t' p x
  tracked : ∀ {p x}, IsTrack p x command → Live t' p x ∨ Reported t' p x

theorem handled_track {t' : ProfileActivationTracker} {owner : String → Option String}
    {p x : String} (h : Tracked t t' p x) (howned : OwnedBy t owner) (hx : owner x = some p)
    (triggerId : String) (d : ProfileDeactivationPolicy) :
    Handled t t' owner (.trackProfileActivation p x triggerId d) where
  coherent := h.coherent
  owned := h.owned howned hx
  reported := h.reported
  live {q y} hlive hd := by
    by_cases hq : q = p
    · have hy : x = y := by
        by_contra hne
        exact hd ⟨hq.symm, hne⟩
      rw [hq, ← hy]
      exact h.self
    · exact h.other hlive hq
  tracked htrack := by
    obtain ⟨triggerId', d', heq⟩ := htrack
    cases heq
    exact h.self

theorem handled_cancel {owner : String → Option String} (h : Coherent t) (howned : OwnedBy t owner)
    (p x : String) :
    Handled t (t.pop x) owner (.cancelProfileActivation p x) where
  coherent := coherent_pop h x
  owned := ownedBy_pop h howned x
  reported hr := by
    unfold Reported
    rw [pop_requested h]
    exact hr
  live hlive hd := Or.inl (live_pop h hlive fun heq => hd heq.symm)
  tracked htrack := by
    obtain ⟨triggerId, d, heq⟩ := htrack
    cases heq

theorem handleCommand_cases (h : Sound sys) (hstep : sys.handleCommand = some sys') :
    ∃ request requests response daemon, sys.requests = request :: requests ∧
      sys' = sys.answer requests response daemon ∧ response.requestId = request.requestId ∧
      Handled sys.daemon daemon sys.issued.get? request.command := by
  unfold System.handleCommand at hstep
  cases hrequests : sys.requests with
  | nil =>
    rw [hrequests] at hstep
    cases hstep
  | cons request requests =>
    have hwell := h.commands request (hrequests ▸ List.mem_cons_self)
    simp only [hrequests] at hstep
    cases hcommand : request.command with
    | trackProfileActivation p x triggerId d =>
      rw [hcommand] at hwell
      obtain ⟨hissued, d', hparse⟩ := hwell
      obtain ⟨hx, hp⟩ := h.issued x p hissued
      simp only [hcommand, hparse, Option.some.injEq] at hstep
      have htracked := tracked_track h.coherent h.owned hissued hx hp triggerId
        (ProfileDeactivationPolicy.parse_hasCondition hparse)
      exact ⟨request, requests, _, _, rfl, hstep.symm, rfl,
        hcommand ▸ handled_track htracked h.owned hissued triggerId d⟩
    | cancelProfileActivation p x =>
      rw [hcommand] at hwell
      obtain ⟨⟨q, hissued⟩, -⟩ := hwell
      obtain ⟨hx, -⟩ := h.issued x q hissued
      simp only [hcommand, cancel_of_stripped hx.1 hx.2, Option.some.injEq] at hstep
      exact ⟨request, requests, _, _, rfl, hstep.symm, rfl,
        hcommand ▸ handled_cancel h.coherent h.owned p x⟩

/-- A TRACK that is handled becomes a tracker or a report; everything else is as before. -/
theorem Sound.handleCommand (h : Sound sys) (hstep : sys.handleCommand = some sys') :
    Sound sys' := by
  obtain ⟨request, requests, response, daemon, hrequests, rfl, hid, hhandled⟩ :=
    handleCommand_cases h hstep
  have htail : ∀ q ∈ requests, q ∈ sys.requests := fun q hq =>
    hrequests ▸ List.mem_cons_of_mem _ hq
  have hkept : ∀ {p x}, Kept sys p x → Kept (sys.answer requests response daemon) p x := by
    rintro p x (hr | ⟨hlive, hclear⟩)
    · exact Or.inl (hhandled.reported hr)
    · rw [hrequests] at hclear
      rcases hhandled.live hlive (hclear request List.mem_cons_self) with hlive | hr
      · exact Or.inr ⟨hlive, hclear.tail⟩
      · exact Or.inl hr
  have hpending : ∀ {p x r}, Pending sys p x r →
      Pending (sys.answer requests response daemon) p x r ∨
        Kept (sys.answer requests response daemon) p x := by
    rintro p x r ⟨before, track, after, heq, hr, htrack, hbefore, hresponses, hclear⟩
    rw [hrequests] at heq
    cases before with
    | nil =>
      obtain ⟨rfl, rfl⟩ := List.cons.inj heq
      rcases hhandled.tracked htrack with hlive | hr
      · exact Or.inr (Or.inr ⟨hlive, hclear⟩)
      · exact Or.inr (Or.inl hr)
    | cons first before =>
      obtain ⟨rfl, rfl⟩ := List.cons.inj heq
      refine Or.inl ⟨before, track, after, rfl, hr, htrack,
        fun q hq => hbefore q (List.mem_cons_of_mem _ hq), fun q hq => ?_, hclear⟩
      rcases List.mem_append.mp hq with hq | hq
      · exact hresponses q hq
      · rw [List.mem_singleton.mp hq, hid]
        exact hbefore _ List.mem_cons_self
  constructor
  · exact h.named
  · exact h.issued
  · exact h.shape
  · exact h.planned
  · exact h.waiting
  · exact fun q hq => h.requestIds q (htail q hq)
  · intro q hq
    rcases List.mem_append.mp hq with hq | hq
    · exact h.responseIds q hq
    · rw [List.mem_singleton.mp hq, hid]
      exact h.requestIds request (hrequests ▸ List.mem_cons_self)
  · exact fun q hq => h.commands q (htail q hq)
  · exact hhandled.coherent
  · exact hhandled.owned
  · exact fun p a hget htracked => hkept (h.marked p a hget htracked)
  · intro task ht r a b hawait hb hbid
    rcases h.awaited task ht r a b hawait hb hbid with hp | hk
    · exact hpending hp
    · exact Or.inr (hkept hk)

theorem coherent_dropReport (h : Coherent t) (request : DeactivateRequest) :
    Coherent { t with requested := t.requested.erase request } :=
  ⟨h.named, h.stripped, h.unexpired, h.current, h.indexed⟩

/-- An expiry report may be dropped together with the activation it is about. -/
theorem Sound.dropReport (h : Sound sys) (request : DeactivateRequest)
    (activations : Dict String RuntimeProfileActivation)
    (hsub : ∀ q a, activations.get? q = some a → sys.activations.get? q = some a)
    (hgone : ∀ q a, activations.get? q = some a →
      ¬(q = request.profileName ∧ a.activationId = request.activationId)) :
    Sound { sys with
      activations := activations
      daemon := { sys.daemon with requested := sys.daemon.requested.erase request } } := by
  have hkept : ∀ {q y}, Kept sys q y →
      ¬(q = request.profileName ∧ y = request.activationId) → Kept { sys with
        daemon := { sys.daemon with requested := sys.daemon.requested.erase request } } q y := by
    rintro q y (hr | hlive) hne
    · refine Or.inl ((List.mem_erase_of_ne ?_).mpr hr)
      intro heq
      exact hne ⟨congrArg DeactivateRequest.profileName heq,
        congrArg DeactivateRequest.activationId heq⟩
    · exact Or.inr hlive
  have hshrunk := h.shrink hsub fun task ht => ht
  refine { hshrunk with
    coherent := coherent_dropReport h.coherent request, owned := h.owned,
    marked := ?_, awaited := ?_ }
  · exact fun q a hget htracked => hkept (hshrunk.marked q a hget htracked) (hgone q a hget)
  · intro task ht r a b hawait hb hid
    refine (hshrunk.awaited task ht r a b hawait hb hid).imp id fun hk => ?_
    exact hkept hk (hid ▸ hgone _ b hb)

/-- The session's names and ids carry no blanks around them. -/
theorem Sound.stripped (h : Sound sys) {p : String} {a : RuntimeProfileActivation}
    (hget : sys.activations.get? p = some a) :
    (strip p = p ∧ p ≠ "") ∧ strip a.activationId = a.activationId ∧ a.activationId ≠ "" :=
  (h.issued _ _ (h.named p a hget).2).symm

/-- A report the session ignores is about no activation it has. -/
theorem Sound.deactivateRequested (h : Sound sys) {request : DeactivateRequest}
    (hstep : stepDeactivateRequested sys request = some sys') :
    Sound sys' := by
  unfold stepDeactivateRequested at hstep
  split at hstep
  · cases hstep
    unfold System.handleProfileDeactivateRequested
    simp only
    split
    · rename_i hblank
      refine h.dropReport request sys.activations (fun q a hget => hget) ?_
      rintro q a hget ⟨hq, hx⟩
      obtain ⟨hname, hid⟩ := h.stripped hget
      rw [hq] at hname
      rw [hx] at hid
      rcases hblank with hb | hb
      · exact hname.2 (hname.1.symm.trans hb)
      · exact hid.2 (hid.1.symm.trans hb)
    · cases hget : sys.activations.get? (strip request.profileName) with
      | none =>
        refine h.dropReport request sys.activations (fun q a hq => hq) ?_
        rintro q a hq ⟨rfl, -⟩
        rw [(h.stripped hq).1.1, hq] at hget
        cases hget
      | some current =>
        simp only
        split
        · rename_i hne
          refine h.dropReport request sys.activations (fun q a hq => hq) ?_
          rintro q a hq ⟨rfl, hx⟩
          obtain ⟨hname, hid⟩ := h.stripped hq
          rw [hname.1, hq] at hget
          cases hget
          rw [← hx, hid.1] at hne
          exact hne rfl
        · refine (h.dropReport request (sys.activations.erase (strip request.profileName))
            (fun q a hq => ?_) ?_).proceed _ ?_
          · rw [Dict.get?_erase] at hq
            split at hq
            · cases hq
            · exact hq
          · rintro q a hq ⟨rfl, -⟩
            rw [Dict.get?_erase] at hq
            split at hq
            · cases hq
            · rename_i hne
              exact hne (h.stripped hq).1.1.symm
          · intro a ha
            rcases List.mem_cons.mp ha with ha | ha <;> cases ha
  · cases hstep

/-! ## Every step -/

/-- A new activation replaces the one its profile had. -/
theorem Sound.activate (h : Sound sys) {p uuid : String} {a : RuntimeProfileActivation}
    (hfresh : sys.freshId uuid = true) (hp : strip p = p ∧ p ≠ "") (hname : a.profileName = p)
    (hid : a.activationId = uuid) (htracked : a.tracked = false) :
    Sound { sys with
      activationSeq := sys.activationSeq + 1
      issued := sys.issued.insert uuid p
      activations := sys.activations.insert p a } := by
  obtain ⟨⟨hnew, hstrip⟩, hne⟩ : (sys.issued.get? uuid = none ∧ strip uuid = uuid) ∧ uuid ≠ "" := by
    simpa [System.freshId, Dict.contains] using hfresh
  have hissued : ∀ {x q}, sys.issued.get? x = some q →
      x ≠ uuid ∧ (sys.issued.insert uuid p).get? x = some q := by
    intro x q hget
    have hx : x ≠ uuid := by
      rintro rfl
      rw [hnew] at hget
      cases hget
    exact ⟨hx, by rw [Dict.get?_insert, if_neg hx, hget]⟩
  have hentry : ∀ {q b}, (sys.activations.insert p a).get? q = some b →
      (q = p ∧ b = a) ∨ sys.activations.get? q = some b := by
    intro q b hb
    rw [Dict.get?_insert] at hb
    split at hb
    · rename_i hq
      exact Or.inl ⟨hq, (Option.some.inj hb).symm⟩
    · exact Or.inr hb
  refine { h with
    named := fun q b hb => ?_
    issued := fun x q hx => ?_
    planned := fun task ht b hb => (hissued (h.planned task ht b hb)).2
    waiting := fun task ht r b hb => (hissued (h.waiting task ht r b hb)).2
    commands := fun request hrequest => ?_
    owned := fun hget => (hissued (h.owned hget)).2
    marked := fun q b hb hmarked => ?_
    awaited := fun task ht r b c hawait hc hcid => ?_ }
  · rcases hentry hb with ⟨rfl, rfl⟩ | hb
    · exact ⟨hname, by rw [hid, Dict.get?_insert_self]⟩
    · exact ⟨(h.named q b hb).1, (hissued (h.named q b hb).2).2⟩
  · rw [Dict.get?_insert] at hx
    split at hx
    · rename_i heq
      cases hx
      exact ⟨heq ▸ ⟨hstrip, hne⟩, hp⟩
    · exact h.issued x q hx
  · have hwell := h.commands request hrequest
    cases hcommand : request.command with
    | trackProfileActivation q x triggerId d =>
      rw [hcommand] at hwell
      exact ⟨(hissued hwell.1).2, hwell.2⟩
    | cancelProfileActivation q x =>
      rw [hcommand] at hwell
      obtain ⟨⟨r, hr⟩, hgone⟩ := hwell
      refine ⟨⟨r, (hissued hr).2⟩, fun q' b hb => ?_⟩
      rcases hentry hb with ⟨-, rfl⟩ | hb
      · rw [hid]
        exact (hissued hr).1.symm
      · exact hgone q' b hb
  · rcases hentry hb with ⟨-, rfl⟩ | hb
    · rw [htracked] at hmarked
      cases hmarked
    · exact h.marked q b hb hmarked
  · rcases hentry hc with ⟨-, rfl⟩ | hc
    · exact absurd (hcid.symm.trans hid) (hissued (h.waiting task ht r b hawait)).1
    · exact h.awaited task ht r b c hawait hc hcid

theorem Sound.trigger (h : Sound sys) {data : TriggerData} {found : Bool} {uuid : String}
    (hstep : sys.handleProfileTrigger data found uuid = some sys') :
    Sound sys' := by
  unfold System.handleProfileTrigger at hstep
  simp only at hstep
  split at hstep
  · cases hstep
    exact h
  · rename_i hprofile
    split at hstep
    · rename_i deactivation _
      unfold System.handleLifetimeProfileTrigger at hstep
      split at hstep
      · cases hstep
        exact h
      · split at hstep
        · cases hstep
          exact h.proceed _ fun a ha => by cases List.mem_singleton.mp ha
        · split at hstep
          · cases hstep
          · rename_i hfresh
            simp only [Bool.not_eq_true', Bool.not_eq_false] at hfresh
            cases hstep
            have hnew := h.activate hfresh ⟨strip_strip data.profileName, hprofile⟩
              (a := sys.newActivation data (strip data.profileName) deactivation uuid)
              rfl rfl rfl
            refine hnew.suspend _ nofun (Or.inr ⟨_, rfl, rfl⟩) fun a ha => ?_
            cases List.mem_singleton.mp ha
            exact Dict.get?_insert_self _ _ _
    · cases hstep
      refine h.proceed _ ?_
      split
      · exact fun a ha => by cases List.mem_singleton.mp ha
      · intro a ha
        rcases List.mem_cons.mp ha with ha | ha
        · cases ha
        · cases List.mem_singleton.mp ha

theorem noTrack_afterWrite (actionType : TriggerAction) (enabled : Bool) :
    NoTrack (System.afterWrite actionType enabled) := by
  intro a ha
  unfold System.afterWrite at ha
  cases enabled <;> cases actionType <;> simp at ha

theorem Sound.stepWritten (h : Sound sys) {result : Option Bool}
    (hstep : stepWritten sys taskId result = some sys') : Sound sys' := by
  unfold Handlers.stepWritten at hstep
  cases hfind : sys.tasks.find? (·.taskId = taskId) with
  | none =>
    rw [hfind] at hstep
    cases hstep
  | some task =>
    have ht : task ∈ sys.tasks := List.mem_of_find?_eq_some hfind
    simp only [hfind] at hstep
    cases hawait : task.awaiting with
    | configWrite actionType enabled =>
      simp only [hawait] at hstep
      cases result with
      | none =>
        cases hstep
        exact h.finish taskId
      | some value =>
        simp only at hstep
        split at hstep
        · cases hstep
        · cases hstep
          refine (h.finish taskId).proceed _ fun a ha => ?_
          rcases List.mem_append.mp ha with ha | ha
          · exact noTrack_afterWrite _ _ a ha
          · rcases h.shape task ht with hno | ⟨b, heq, -⟩
            · exact hno a ha
            · rw [hawait] at heq
              cases heq
    | reevaluation => simp only [hawait, reduceCtorEq] at hstep
    | cancelAnswer r => simp only [hawait, reduceCtorEq] at hstep
    | trackAnswer r a => simp only [hawait, reduceCtorEq] at hstep

theorem overtaken_finish {a : RuntimeProfileActivation} (h : overtaken sys a = false) (taskId : ℕ) :
    overtaken (sys.finish taskId) a = false := by
  have hsent : ∀ b, trackSent (sys.finish taskId) b = true → trackSent sys b = true := by
    intro b hb
    simp only [trackSent, Bool.or_eq_true, List.any_eq_true] at hb ⊢
    refine hb.imp id ?_
    rintro ⟨task, ht, hawait⟩
    exact ⟨task, (List.mem_filter.mp ht).1, hawait⟩
  by_contra hnot
  rw [Bool.not_eq_false] at hnot
  unfold overtaken at h hnot
  rw [Option.any_eq_true] at hnot
  obtain ⟨current, hget, hcurrent⟩ := hnot
  have hget : sys.activations.get? a.profileName = some current := hget
  simp only [Bool.and_eq_true] at hcurrent
  rw [hget, Option.any_some, hcurrent.1.1, hsent current hcurrent.1.2] at h
  have hreported : decide ((⟨a.profileName, current.activationId⟩ : DeactivateRequest) ∉
      sys.daemon.requested) = true := hcurrent.2
  rw [hreported] at h
  cases h

theorem Sound.stepReevaluated (h : Sound sys)
    (horder : tracksInOrder sys (.reevaluated taskId) = true)
    (hstep : stepReevaluated sys taskId = some sys') : Sound sys' := by
  unfold Handlers.stepReevaluated at hstep
  cases hfind : sys.tasks.find? (·.taskId = taskId) with
  | none =>
    rw [hfind] at hstep
    cases hstep
  | some task =>
    have ht : task ∈ sys.tasks := List.mem_of_find?_eq_some hfind
    simp only [hfind] at hstep
    split at hstep
    · cases hstep
      rcases h.shape task ht with hno | ⟨a, -, hrest⟩
      · exact (h.finish taskId).proceed _ hno
      · have hissued := h.planned task ht a (hrest ▸ List.mem_singleton_self _)
        have hovertaken : overtaken sys a = false := by
          simpa [tracksInOrder, hfind, hrest] using horder
        rw [hrest]
        exact (h.finish taskId).sendTrack _ hissued (overtaken_finish hovertaken taskId)
    · cases hstep

theorem Sound.stepRaised (h : Sound sys) (hstep : stepRaised sys taskId = some sys') :
    Sound sys' := by
  unfold Handlers.stepRaised at hstep
  cases hfind : sys.tasks.find? (·.taskId = taskId) with
  | none =>
    rw [hfind] at hstep
    cases hstep
  | some task =>
    simp only [hfind] at hstep
    cases hawait : task.awaiting with
    | configWrite actionType enabled =>
      simp only [hawait, Option.some.injEq] at hstep
      exact hstep ▸ h.finish taskId
    | reevaluation =>
      simp only [hawait, Option.some.injEq] at hstep
      exact hstep ▸ h.finish taskId
    | cancelAnswer r => simp only [hawait, reduceCtorEq] at hstep
    | trackAnswer r a => simp only [hawait, reduceCtorEq] at hstep

theorem Sound.stepSendFailed (h : Sound sys) (hstep : stepSendFailed sys taskId = some sys') :
    Sound sys' := by
  unfold Handlers.stepSendFailed at hstep
  cases hfind : sys.tasks.find? (·.taskId = taskId) with
  | none =>
    rw [hfind] at hstep
    cases hstep
  | some task =>
    have ht : task ∈ sys.tasks := List.mem_of_find?_eq_some hfind
    simp only [hfind] at hstep
    cases hawait : task.awaiting with
    | configWrite actionType enabled => simp only [hawait, reduceCtorEq] at hstep
    | reevaluation => simp only [hawait, reduceCtorEq] at hstep
    | cancelAnswer r =>
      simp only [hawait, Option.some.injEq] at hstep
      rw [← hstep]
      refine (h.finish taskId).proceed _ ((h.shape task ht).resolve_right ?_)
      rintro ⟨a, heq, -⟩
      rw [hawait] at heq
      cases heq
    | trackAnswer r a =>
      simp only [hawait, Option.some.injEq] at hstep
      exact hstep ▸ (h.finish taskId).trackFailed a

theorem Sound.step (h : Sound sys) {op : Op} (horder : tracksInOrder sys op = true)
    (hstep : step sys op = some sys') : Sound sys' := by
  cases op with
  | trigger data found uuid => exact h.trigger hstep
  | written taskId enabled => exact h.stepWritten hstep
  | reevaluated taskId => exact h.stepReevaluated horder hstep
  | raised taskId => exact h.stepRaised hstep
  | answered response => exact h.stepAnswered hstep
  | sendFailed taskId => exact h.stepSendFailed hstep
  | deactivateRequested request => exact h.deactivateRequested hstep
  | command => exact h.handleCommand hstep
  | triggerStart triggerId =>
    cases hstep
    exact h.expires (expires_observeTriggerStart h.coherent triggerId)
  | triggerEnd triggerId =>
    cases hstep
    exact h.expires (expires_observeTriggerEnd h.coherent triggerId)
  | action triggerId =>
    cases hstep
    exact h.expires (expires_recordAction h.coherent triggerId)
  | timeout activationId =>
    obtain ⟨daemon, hdaemon, rfl⟩ := Option.map_eq_some_iff.mp hstep
    exact h.expires (expires_timeoutAfter h.coherent hdaemon)

/-- In a run that sends no TRACK out of order, once no message is under way every activation
the session has marked as tracked has a live tracker. -/
theorem tracked_activation_live {ops : List Op} {sys : System}
    (horder : Guarded step (fun s op => tracksInOrder s op = true) {} ops)
    (hrun : run step {} ops = some sys)
    (hquiet : quiet sys = true) {profileName : String} {a : RuntimeProfileActivation}
    (hget : sys.activations.get? profileName = some a) (htracked : a.tracked = true) :
    ∃ tracker, sys.daemon.trackers.get? a.activationId = some tracker ∧
      tracker.profileName = profileName ∧ tracker.activationId = a.activationId ∧
      tracker.expired = false := by
  have h : Sound sys := guarded_run_invariant
    (fun _ _ _ h hop hstep => h.step hop hstep) sound_start horder hrun
  simp only [quiet, Bool.and_eq_true, List.isEmpty_iff] at hquiet
  rcases h.marked profileName a hget htracked with hreported | ⟨⟨tracker, hlive, hprofile⟩, -⟩
  · rw [Reported, hquiet.2] at hreported
    cases hreported
  · exact ⟨tracker, hlive, hprofile, h.coherent.named hlive, h.coherent.unexpired hlive⟩

/-- A temporary layer that lasts for one action. -/
def momentary : TriggerData where
  actionType := .profileEnable
  profileName := "Nav"
  triggerId := "1234:5678:btn_back"
  deactivation := some { afterActions := some 1 }

/- Two triggers in turn, the second one after the first is tracked. -/
def retriggered : List Op :=
  [.trigger momentary true "a1", .reevaluated 1, .command, .answered ⟨1, some true⟩,
    .trigger momentary true "a2", .reevaluated 3, .command, .answered ⟨2, some true⟩]

theorem tracked_activation_live_retriggered :
    (∃ sys, run step {} retriggered = some sys ∧ quiet sys = true) ∧
      ∀ sys, run step {} retriggered = some sys → quiet sys = true →
        ∀ a, sys.activations.get? "Nav" = some a → a.tracked = true →
        ∃ tracker, sys.daemon.trackers.get? a.activationId = some tracker ∧
          tracker.profileName = "Nav" ∧ tracker.activationId = a.activationId ∧
          tracker.expired = false := by
  have horder : Guarded step (fun s op => tracksInOrder s op = true) {} retriggered := by
    decide
  have hsome : (run step {} retriggered).any quiet = true := by decide
  rw [Option.any_eq_true] at hsome
  refine ⟨hsome, fun sys hrun hquiet a hget htracked => ?_⟩
  exact tracked_activation_live horder hrun hquiet hget htracked

/- Two overlapping triggers: both reevaluations end together, and the handler of the newer one
goes on first. -/
def overlapping : List Op :=
  [.trigger momentary true "a1", .trigger momentary true "a2", .reevaluated 2, .reevaluated 1,
    .command, .command, .answered ⟨1, some true⟩, .answered ⟨2, some true⟩]

/-- The late TRACK of the older activation takes the tracker of the newer one away. -/
theorem tracked_activation_lost :
    ¬∀ (ops : List Op) (sys : System), run step {} ops = some sys → quiet sys = true →
      ∀ profileName a, sys.activations.get? profileName = some a → a.tracked = true →
        ∃ tracker, sys.daemon.trackers.get? a.activationId = some tracker ∧
          tracker.activationId = a.activationId := by
  intro h
  have hlost : (run step {} overlapping).any (fun sys => quiet sys &&
      (sys.activations.get? "Nav").any fun a =>
        a.tracked && !sys.daemon.trackers.contains a.activationId) = true := by decide
  rw [Option.any_eq_true] at hlost
  obtain ⟨sys, hrun, hsys⟩ := hlost
  rw [Bool.and_eq_true, Option.any_eq_true] at hsys
  obtain ⟨hquiet, a, hget, ha⟩ := hsys
  rw [Bool.and_eq_true] at ha
  obtain ⟨tracker, hlive, -⟩ := h overlapping sys hrun hquiet "Nav" a hget ha.1
  simp [Dict.contains, hlive] at ha

end Keymasq.Activation.Live
