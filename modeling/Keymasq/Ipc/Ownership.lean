import Keymasq.Foundation.Transition
import Mathlib.Logic.Function.Basic

/-!
# The owner of the daemon socket

One connection owns the daemon at a time. Its handler reads commands and runs
each in a task of its own. The connection is dropped by its handler when the peer
is gone, or by a broadcast whose write failed, and the drop runs the disconnect
cleanup before the next connection can become the owner.
-/

namespace Keymasq.Ipc.Ownership
open Foundation Transition

/-- A command task is in the command handler, or sends its response. -/
inductive CommandPhase
  | handling
  | responding
  deriving DecidableEq

inductive HandlerPhase
  | reading
  | awaitingCommand
  | dropping
  | ended
  deriving DecidableEq

/-- The task that runs `_drop_client`. -/
inductive Dropper
  | handler
  | broadcast
  deriving DecidableEq

/- A connection is registered while it is in `clients`, `_buffer` and
`_client_context`; `cleanup` is the drop that runs the disconnect handler. -/
structure Connection where
  registered : Bool := false
  handler : HandlerPhase := .ended
  command : Option CommandPhase := none
  cleanup : Option Dropper := none

/- What happened: a connection was admitted as the owner, a command of it changed
the state of the daemon, the disconnect cleanup of it finished. -/
inductive Occurrence
  | admitted (connectionId : Nat)
  | effect (connectionId : Nat)
  | cleaned (connectionId : Nat)
  deriving DecidableEq

structure State where
  connections : Nat → Connection := fun _ => {}
  nextConnectionId : Nat := 1
  ownerContext : Option Nat := none
  quiescing : Bool := false
  trace : List Occurrence := []

inductive Step
  | connect
  | receiveCommand (connectionId : Nat)
  | takeEffect (connectionId : Nat)
  | commandReturns (connectionId : Nat)
  | responseEnds (connectionId : Nat)
  | handlerEnds (connectionId : Nat)
  | broadcastFails (connectionId : Nat)
  | cleanupEnds (connectionId : Nat) (completed : Bool)
  | quiesce
  | stopEnds

def State.update (s : State) (connectionId : Nat) (connection : Connection) : State :=
  { s with connections := Function.update s.connections connectionId connection }

/-- `_serve_client` up to its loop: the first connection becomes the owner, others are denied. -/
def serveClient (s : State) : State :=
  if s.quiescing then s
  else
    let connectionId := s.nextConnectionId
    let s := { s with nextConnectionId := connectionId + 1 }
    match s.ownerContext with
    | some _ => s
    | none =>
      { s.update connectionId { registered := true, handler := .reading } with
        ownerContext := some connectionId
        trace := s.trace ++ [.admitted connectionId] }

/- `_drop_client` up to the disconnect handler. A registered connection is the
owner, and one that is not registered any more has been dropped already. -/
def dropClient (connection : Connection) (dropper : Dropper) : Connection :=
  if connection.registered then
    { connection with registered := false, cleanup := some dropper }
  else connection

def step (s : State) : Step → Option State
  | .connect => some (serveClient s)
  | .receiveCommand c =>
    let connection := s.connections c
    if connection.registered ∧ connection.handler = .reading then
      some (s.update c { connection with
        handler := .awaitingCommand
        command := some (if s.quiescing then .responding else .handling) })
    else none
  | .takeEffect c =>
    if (s.connections c).command = some .handling then
      some { s with trace := s.trace ++ [.effect c] }
    else none
  | .commandReturns c =>
    let connection := s.connections c
    if connection.command = some .handling then
      -- The response of a dropped connection is not sent.
      some (s.update c (if connection.registered then { connection with command := some .responding }
        else { connection with handler := .reading, command := none }))
    else none
  | .responseEnds c =>
    let connection := s.connections c
    if connection.command = some .responding then
      some (s.update c { connection with handler := .reading, command := none })
    else none
  | .handlerEnds c =>
    let connection := s.connections c
    if connection.handler = .reading then
      some (s.update c { dropClient connection .handler with
        handler := if connection.registered then .dropping else .ended })
    else none
  | .broadcastFails c => some (s.update c (dropClient (s.connections c) .broadcast))
  | .cleanupEnds c completed =>
    let connection := s.connections c
    match connection.cleanup with
    | none => none
    | some dropper =>
      some { s.update c { connection with
          cleanup := none
          handler := if dropper = .handler then .ended else connection.handler } with
        ownerContext := none
        trace := if completed then s.trace ++ [.cleaned c] else s.trace }
  | .quiesce => some { s with quiescing := true }
  | .stopEnds =>
    if s.quiescing then
      some { s with
        connections := fun c => { s.connections c with registered := false }
        ownerContext := none }
    else none

/-- The connection has been cleaned up, or a later one has been admitted. -/
def Gone (trace : List Occurrence) (c : Nat) : Prop :=
  .cleaned c ∈ trace ∨ ∃ c', c < c' ∧ .admitted c' ∈ trace

/-- A failed broadcast drops no connection whose command is in the command handler. -/
def Keeps (s : State) : Step → Prop
  | .broadcastFails c =>
    ¬ ((s.connections c).registered = true ∧ (s.connections c).command = some .handling)
  | _ => True

/-! ## One owner -/

/-- What one connection satisfies, whatever the others do. -/
structure Settled (s : State) (c : Nat) : Prop where
  owner : (s.connections c).registered = true → s.ownerContext = some c
  reading : (s.connections c).handler = .reading → (s.connections c).command = none
  handling : (s.connections c).command = some .handling →
    (s.connections c).registered = true ∨ s.quiescing = true
  cleaning : (s.connections c).cleanup ≠ none →
    (s.connections c).registered = false ∧ (s.connections c).command ≠ some .handling ∧
      (s.ownerContext = some c ∨ s.ownerContext = none ∧ s.quiescing = true)
  fresh : s.nextConnectionId ≤ c → s.connections c = {}
  gone : Gone s.trace c → c < s.nextConnectionId ∧ (s.connections c).registered = false ∧
    (s.connections c).command ≠ some .handling

/-- An effect comes before the cleanup of its connection and before later owners. -/
def Ordered (trace : List Occurrence) : Prop :=
  ∀ before after c, trace = before ++ .effect c :: after → ¬ Gone before c

structure Sound (s : State) : Prop where
  settled : ∀ c, Settled s c
  ordered : Ordered s.trace

theorem not_gone_nil (c : Nat) : ¬ Gone [] c := by
  simp [Gone]

variable {c : Nat} {s : State}

theorem gone_append {trace : List Occurrence} {o : Occurrence} :
    Gone (trace ++ [o]) c ↔ Gone trace c ∨ o = .cleaned c ∨ ∃ c', c < c' ∧ o = .admitted c' := by
  unfold Gone
  simp only [List.mem_append, List.mem_singleton]
  grind

theorem sound_initial : Sound {} where
  settled c := by
    refine ⟨?_, ?_, ?_, ?_, ?_, ?_⟩
    · intro h
      cases h
    · intro h
      cases h
    · intro h
      cases h
    · intro h
      exact absurd rfl h
    · intro _
      rfl
    · intro h
      exact absurd h (not_gone_nil c)
  ordered := by
    intro before after c h
    simp at h

theorem ordered_append {trace : List Occurrence} (h : Ordered trace) (o : Occurrence)
    (heffect : ∀ c, o = .effect c → ¬ Gone trace c) : Ordered (trace ++ [o]) := by
  intro before after c heq
  obtain hnil | ⟨front, last, hlast⟩ := List.eq_nil_or_concat after
  · rw [hnil] at heq
    obtain ⟨htrace, ho⟩ := List.append_inj' heq rfl
    rw [← htrace]
    exact heffect c (by simpa using ho)
  · have heq' : trace ++ [o] = (before ++ .effect c :: front) ++ [last] := by
      rw [heq, hlast]
      simp
    exact h before front c (List.append_inj' heq' rfl).1

theorem update_connections (s : State) (c d : Nat) (connection : Connection) :
    (s.update c connection).connections d = if d = c then connection else s.connections d := by
  unfold State.update
  by_cases h : d = c
  · rw [h, if_pos rfl]
    exact Function.update_self ..
  · rw [if_neg h]
    exact Function.update_of_ne h ..

/-- A step that changes one connection keeps what the others satisfy. -/
theorem Sound.update (h : Sound s) (c : Nat) {connection : Connection}
    (hc : Settled (s.update c connection) c) : Sound (s.update c connection) where
  settled d := by
    by_cases hd : d = c
    · rw [hd]
      exact hc
    · have hsame : (s.update c connection).connections d = s.connections d := by
        rw [update_connections, if_neg hd]
      obtain ⟨howner, hreading, hhandling, hcleaning, hfresh, hgone⟩ := h.settled d
      rw [← hsame] at howner hreading hhandling hcleaning hfresh hgone
      exact ⟨howner, hreading, hhandling, hcleaning, hfresh, hgone⟩
  ordered := h.ordered

theorem lt_of_not_fresh (h : Settled s c) (hconnection : s.connections c ≠ {}) :
    c < s.nextConnectionId := by
  by_contra hle
  exact hconnection (h.fresh (by omega))

theorem sound_receiveCommand (h : Sound s)
    (henabled : (s.connections c).registered = true ∧ (s.connections c).handler = .reading) :
    Sound (s.update c { s.connections c with
      handler := .awaitingCommand
      command := some (if s.quiescing then .responding else .handling) }) := by
  refine h.update c ?_
  obtain ⟨howner, hreading, hhandling, hcleaning, hfresh, hgone⟩ := h.settled c
  have hlt := lt_of_not_fresh (h.settled c) (fun hdefault => by simp [hdefault] at henabled)
  refine ⟨?_, ?_, ?_, ?_, ?_, ?_⟩ <;> rw [update_connections, if_pos rfl]
  · exact howner
  · intro hphase
    cases hphase
  · intro _
    exact .inl henabled.1
  · intro hcleanup
    have hnot := (hcleaning hcleanup).1
    simp [henabled.1] at hnot
  · intro hle
    exact absurd hlt (Nat.not_lt.mpr hle)
  · intro hg
    have hnot := (hgone hg).2.1
    simp [henabled.1] at hnot

/-- A command that goes on to less than the command handler changes nothing else. -/
theorem sound_setCommand (h : Sound s) (hsome : (s.connections c).command ≠ none)
    {connection : Connection} (hregistered : connection.registered = (s.connections c).registered)
    (hcleanup : connection.cleanup = (s.connections c).cleanup)
    (hcommand : connection.command ≠ some .handling)
    (hreading : connection.handler = .reading → connection.command = none) :
    Sound (s.update c connection) := by
  refine h.update c ?_
  obtain ⟨howner, -, -, hcleaning, -, hgone⟩ := h.settled c
  have hlt := lt_of_not_fresh (h.settled c) (fun hdefault => by simp [hdefault] at hsome)
  refine ⟨?_, ?_, ?_, ?_, ?_, ?_⟩ <;> rw [update_connections, if_pos rfl]
  · rw [hregistered]
    exact howner
  · exact hreading
  · intro hhandling
    exact absurd hhandling hcommand
  · rw [hcleanup, hregistered]
    intro hsome'
    exact ⟨(hcleaning hsome').1, hcommand, (hcleaning hsome').2.2⟩
  · intro hle
    exact absurd hlt (Nat.not_lt.mpr hle)
  · intro hg
    rw [hregistered]
    exact ⟨hlt, (hgone hg).2.1, hcommand⟩

/-- The start of a drop, where no command of the connection is in the command handler. -/
theorem sound_dropClient (h : Sound s) (dropper : Dropper)
    (hcommand : (s.connections c).registered = true → (s.connections c).command ≠ some .handling) :
    Sound (s.update c (dropClient (s.connections c) dropper)) := by
  refine h.update c ?_
  obtain ⟨howner, hreading, hhandling, hcleaning, hfresh, hgone⟩ := h.settled c
  cases hregistered : (s.connections c).registered with
  | false =>
    have hsame : dropClient (s.connections c) dropper = s.connections c := by
      simp [dropClient, hregistered]
    rw [hsame]
    refine ⟨?_, ?_, ?_, ?_, ?_, ?_⟩ <;> rw [update_connections, if_pos rfl]
    · exact howner
    · exact hreading
    · exact hhandling
    · exact hcleaning
    · exact hfresh
    · exact hgone
  | true =>
    have hdropped : dropClient (s.connections c) dropper =
        { s.connections c with registered := false, cleanup := some dropper } := by
      simp [dropClient, hregistered]
    have hlt := lt_of_not_fresh (h.settled c) (fun hdefault => by simp [hdefault] at hregistered)
    rw [hdropped]
    refine ⟨?_, ?_, ?_, ?_, ?_, ?_⟩ <;> rw [update_connections, if_pos rfl]
    · intro hfalse
      cases hfalse
    · exact hreading
    · intro hrunning
      exact absurd hrunning (hcommand hregistered)
    · intro _
      exact ⟨rfl, hcommand hregistered, .inl (howner hregistered)⟩
    · intro hle
      exact absurd hlt (Nat.not_lt.mpr hle)
    · intro hg
      exact ⟨hlt, rfl, hcommand hregistered⟩

theorem update_update (s : State) (c : Nat) (connection connection' : Connection) :
    (s.update c connection).update c connection' = s.update c connection' := by
  simp [State.update]

theorem sound_handlerEnds (h : Sound s) (hphase : (s.connections c).handler = .reading) :
    Sound (s.update c { dropClient (s.connections c) .handler with
      handler := if (s.connections c).registered then .dropping else .ended }) := by
  have hnone := (h.settled c).reading hphase
  have hlt := lt_of_not_fresh (h.settled c) (fun hdefault => by simp [hdefault] at hphase)
  have hdropped := sound_dropClient h .handler (c := c) (fun _ => by simp [hnone])
  rw [← update_update s c (dropClient (s.connections c) .handler)]
  have hself := update_connections s c c (dropClient (s.connections c) .handler)
  rw [if_pos rfl] at hself
  refine hdropped.update c ?_
  obtain ⟨howner, -, hhandling, hcleaning, -, hgone⟩ := hdropped.settled c
  rw [hself] at howner hhandling hcleaning hgone
  refine ⟨?_, ?_, ?_, ?_, ?_, ?_⟩ <;> rw [update_connections, if_pos rfl]
  · exact howner
  · intro hreading
    have hnot : (if (s.connections c).registered then HandlerPhase.dropping else .ended) ≠
        .reading := by
      split <;> simp
    exact absurd hreading hnot
  · exact hhandling
  · exact hcleaning
  · intro hle
    exact absurd hlt (Nat.not_lt.mpr hle)
  · exact hgone

theorem sound_cleanupEnds (h : Sound s) {dropper : Dropper}
    (hcleanup : (s.connections c).cleanup = some dropper) (completed : Bool) :
    Sound { s.update c { s.connections c with
        cleanup := none
        handler := if dropper = .handler then .ended else (s.connections c).handler } with
      ownerContext := none
      trace := if completed then s.trace ++ [.cleaned c] else s.trace } := by
  obtain ⟨hnot, hcommand, howned⟩ := (h.settled c).cleaning (by simp [hcleanup])
  have hlt := lt_of_not_fresh (h.settled c) (fun hdefault => by simp [hdefault] at hcleanup)
  have hunregistered (d : Nat) : (s.connections d).registered = false := by
    by_contra hregistered
    have howner := (h.settled d).owner (by simpa using hregistered)
    obtain hc | hnone := howned
    · rw [hc] at howner
      cases howner
      exact hregistered hnot
    · rw [hnone.1] at howner
      cases howner
  have hgone (d : Nat) (hg : Gone (if completed then s.trace ++ [.cleaned c] else s.trace) d) :
      Gone s.trace d ∨ d = c := by
    cases completed with
    | false => exact .inl hg
    | true =>
      obtain hold | hnew | ⟨c', -, hnew⟩ := gone_append.mp hg
      · exact .inl hold
      · cases hnew
        exact .inr rfl
      · cases hnew
  refine ⟨fun d => ?_, ?_⟩
  · by_cases hd : d = c
    · rw [hd]
      obtain ⟨-, hreading, hhandling, -, -, -⟩ := h.settled c
      refine ⟨?_, ?_, ?_, ?_, ?_, ?_⟩ <;>
        rw [show ∀ (u : State) (o : Option Nat) (t : List Occurrence),
          ({ u with ownerContext := o, trace := t } : State).connections = u.connections from
            fun _ _ _ => rfl, update_connections, if_pos rfl]
      · intro hregistered
        simp [hnot] at hregistered
      · intro hphase
        refine hreading ?_
        by_cases hdropper : dropper = .handler
        · simp [hdropper] at hphase
        · simpa [hdropper] using hphase
      · exact hhandling
      · intro hnone
        exact absurd rfl hnone
      · intro hle
        exact absurd hlt (Nat.not_lt.mpr hle)
      · intro _
        exact ⟨hlt, hnot, hcommand⟩
    · obtain ⟨-, hreading, hhandling, hcleaning, hfresh, hbefore⟩ := h.settled d
      refine ⟨?_, ?_, ?_, ?_, ?_, ?_⟩ <;>
        rw [show ∀ (u : State) (o : Option Nat) (t : List Occurrence),
          ({ u with ownerContext := o, trace := t } : State).connections = u.connections from
            fun _ _ _ => rfl, update_connections, if_neg hd]
      · intro hregistered
        simp [hunregistered d] at hregistered
      · exact hreading
      · exact hhandling
      · intro hsome
        obtain ⟨hfalse, hnocommand, howner⟩ := hcleaning hsome
        refine ⟨hfalse, hnocommand, .inr ⟨rfl, ?_⟩⟩
        obtain hd' | hquiescing := howner
        · obtain hc | hquiescing := howned
          · rw [hc] at hd'
            cases hd'
            exact absurd rfl hd
          · exact hquiescing.2
        · exact hquiescing.2
      · exact hfresh
      · intro hg
        obtain hold | hself := hgone d hg
        · exact hbefore hold
        · exact absurd hself hd
  · cases completed with
    | false => exact h.ordered
    | true => exact ordered_append h.ordered _ (fun c' heq => by cases heq)

theorem serveClient_denied {owner : Nat} (hquiescing : s.quiescing = false)
    (howner : s.ownerContext = some owner) :
    serveClient s = { s with nextConnectionId := s.nextConnectionId + 1 } := by
  unfold serveClient
  rw [if_neg (by simp [hquiescing])]
  simp only [howner]

theorem serveClient_admitted (hquiescing : s.quiescing = false) (howner : s.ownerContext = none) :
    serveClient s = { s.update s.nextConnectionId { registered := true, handler := .reading } with
      nextConnectionId := s.nextConnectionId + 1
      ownerContext := some s.nextConnectionId
      trace := s.trace ++ [.admitted s.nextConnectionId] } := by
  unfold serveClient
  rw [if_neg (by simp [hquiescing])]
  simp only [howner]
  rfl

theorem sound_denied (h : Sound s) :
    Sound { s with nextConnectionId := s.nextConnectionId + 1 } := by
  refine ⟨fun c => ?_, h.ordered⟩
  obtain ⟨howner, hreading, hhandling, hcleaning, hfresh, hgone⟩ := h.settled c
  refine ⟨howner, hreading, hhandling, hcleaning, fun hle => hfresh ?_, fun hg => ?_⟩
  · exact Nat.le_of_succ_le hle
  · exact ⟨Nat.lt_succ_of_lt (hgone hg).1, (hgone hg).2⟩

/-- A new owner finds no command of an earlier connection in the command handler. -/
theorem sound_admitted (h : Sound s) (hquiescing : s.quiescing = false)
    (howner : s.ownerContext = none) :
    Sound { s.update s.nextConnectionId { registered := true, handler := .reading } with
      nextConnectionId := s.nextConnectionId + 1
      ownerContext := some s.nextConnectionId
      trace := s.trace ++ [.admitted s.nextConnectionId] } := by
  have hunregistered (c : Nat) : (s.connections c).registered = false := by
    by_contra hregistered
    have hown := (h.settled c).owner (by simpa using hregistered)
    rw [howner] at hown
    cases hown
  have hidle (c : Nat) : (s.connections c).command ≠ some .handling := by
    intro hrunning
    obtain hregistered | hstops := (h.settled c).handling hrunning
    · simp [hunregistered c] at hregistered
    · simp [hquiescing] at hstops
  have hcleaned (c : Nat) : (s.connections c).cleanup = none := by
    by_contra hsome
    obtain hown | hstops := ((h.settled c).cleaning hsome).2.2
    · rw [howner] at hown
      cases hown
    · simp [hquiescing] at hstops
  have hgone (c : Nat) (hg : Gone (s.trace ++ [.admitted s.nextConnectionId]) c) :
      c < s.nextConnectionId := by
    obtain hold | hnew | ⟨c', hlt, hnew⟩ := gone_append.mp hg
    · exact ((h.settled c).gone hold).1
    · cases hnew
    · cases hnew
      exact hlt
  refine ⟨fun c => ?_, ordered_append h.ordered _ (fun c heq => by cases heq)⟩
  by_cases hc : c = s.nextConnectionId
  · rw [hc]
    have hself := update_connections s s.nextConnectionId s.nextConnectionId
      { registered := true, handler := .reading }
    rw [if_pos rfl] at hself
    refine ⟨fun _ => rfl, ?_, ?_, ?_, ?_, ?_⟩
    · intro _
      exact congrArg Connection.command hself
    · intro hrunning
      rw [show _ = _ from congrArg Connection.command hself] at hrunning
      cases hrunning
    · intro hsome
      exact absurd (congrArg Connection.cleanup hself) hsome
    · intro hle
      exact absurd hle (Nat.not_succ_le_self _)
    · intro hg
      exact absurd (hgone s.nextConnectionId hg) (Nat.lt_irrefl _)
  · have hsame := update_connections s s.nextConnectionId c
      { registered := true, handler := .reading }
    rw [if_neg hc] at hsame
    obtain ⟨-, hreading, -, -, hfresh, -⟩ := h.settled c
    refine ⟨?_, ?_, ?_, ?_, ?_, ?_⟩
    all_goals simp only [hsame]
    · intro hregistered
      simp [hunregistered c] at hregistered
    · exact hreading
    · intro hrunning
      exact absurd hrunning (hidle c)
    · intro hsome
      exact absurd (hcleaned c) hsome
    · intro hle
      exact hfresh (Nat.le_of_succ_le hle)
    · intro hg
      exact ⟨Nat.lt_succ_of_lt (hgone c hg), hunregistered c, hidle c⟩

theorem sound_stopEnds (h : Sound s) (hquiescing : s.quiescing = true) :
    Sound { s with
      connections := fun c => { s.connections c with registered := false }
      ownerContext := none } := by
  refine ⟨fun c => ?_, h.ordered⟩
  obtain ⟨howner, hreading, hhandling, hcleaning, hfresh, hgone⟩ := h.settled c
  refine ⟨?_, hreading, ?_, ?_, ?_, ?_⟩
  · intro hregistered
    cases hregistered
  · intro _
    exact .inr hquiescing
  · intro hsome
    exact ⟨rfl, (hcleaning hsome).2.1, .inr ⟨rfl, hquiescing⟩⟩
  · intro hle
    simp [hfresh hle]
  · intro hg
    exact ⟨(hgone hg).1, rfl, (hgone hg).2.2⟩

theorem sound_step (s : State) (a : Step) (t : State) (h : Sound s) (hkeeps : Keeps s a)
    (hstep : step s a = some t) : Sound t := by
  cases a with
  | connect =>
    cases hstep
    cases hquiescing : s.quiescing with
    | true =>
      have hsame : serveClient s = s := by simp [serveClient, hquiescing]
      rw [hsame]
      exact h
    | false =>
      cases howner : s.ownerContext with
      | some owner =>
        rw [serveClient_denied hquiescing howner]
        exact sound_denied h
      | none =>
        rw [serveClient_admitted hquiescing howner]
        exact sound_admitted h hquiescing howner
  | receiveCommand c =>
    simp only [step, Option.ite_none_right_eq_some] at hstep
    obtain ⟨henabled, ht⟩ := hstep
    cases ht
    exact sound_receiveCommand h henabled
  | takeEffect c =>
    simp only [step, Option.ite_none_right_eq_some] at hstep
    obtain ⟨hrunning, ht⟩ := hstep
    cases ht
    refine ⟨fun d => ?_, ordered_append h.ordered _ ?_⟩
    · obtain ⟨howner, hreading, hhandling, hcleaning, hfresh, hgone⟩ := h.settled d
      refine ⟨howner, hreading, hhandling, hcleaning, hfresh, fun hg => hgone ?_⟩
      obtain hold | hnew | ⟨c', -, hnew⟩ := gone_append.mp hg
      · exact hold
      · cases hnew
      · cases hnew
    · intro d heq hg
      cases heq
      exact ((h.settled c).gone hg).2.2 hrunning
  | commandReturns c =>
    simp only [step, Option.ite_none_right_eq_some] at hstep
    obtain ⟨hrunning, ht⟩ := hstep
    cases ht
    refine sound_setCommand h (by simp [hrunning]) ?_ ?_ ?_ ?_
    · split <;> rfl
    · split <;> rfl
    · split <;> simp
    · intro hphase
      split
      · rename_i hregistered
        rw [if_pos hregistered] at hphase
        have hnone := (h.settled c).reading hphase
        rw [hnone] at hrunning
        cases hrunning
      · rfl
  | responseEnds c =>
    simp only [step, Option.ite_none_right_eq_some] at hstep
    obtain ⟨hresponding, ht⟩ := hstep
    cases ht
    exact sound_setCommand h (by simp [hresponding]) rfl rfl (by simp) (fun _ => rfl)
  | handlerEnds c =>
    simp only [step, Option.ite_none_right_eq_some] at hstep
    obtain ⟨hphase, ht⟩ := hstep
    cases ht
    exact sound_handlerEnds h hphase
  | broadcastFails c =>
    cases hstep
    exact sound_dropClient h .broadcast fun hregistered hrunning => hkeeps ⟨hregistered, hrunning⟩
  | cleanupEnds c completed =>
    cases hcleanup : (s.connections c).cleanup with
    | none => simp [step, hcleanup] at hstep
    | some dropper =>
      simp only [step, hcleanup, Option.some.injEq] at hstep
      rw [← hstep]
      exact sound_cleanupEnds h hcleanup completed
  | quiesce =>
    cases hstep
    refine ⟨fun c => ?_, h.ordered⟩
    obtain ⟨howner, hreading, hhandling, hcleaning, hfresh, hgone⟩ := h.settled c
    refine ⟨howner, hreading, fun _ => .inr rfl, fun hsome => ?_, hfresh, hgone⟩
    obtain ⟨hfalse, hnocommand, hown⟩ := hcleaning hsome
    exact ⟨hfalse, hnocommand, hown.imp_right fun hnone => ⟨hnone.1, rfl⟩⟩
  | stopEnds =>
    simp only [step, Option.ite_none_right_eq_some] at hstep
    obtain ⟨hquiescing, ht⟩ := hstep
    cases ht
    exact sound_stopEnds h hquiescing

/- Along a run in which no failed broadcast drops a connection while its command
is in the command handler: one connection at most is registered, and it is the
owner; no command of a connection that has been cleaned up or succeeded by a later
owner is in the command handler, and all its effects came before. -/
theorem cleanup_is_final (as : List Step) (s : State) (hkeeps : Guarded step Keeps {} as)
    (hrun : run step {} as = some s) :
    (∀ c c', (s.connections c).registered = true → (s.connections c').registered = true → c = c') ∧
      (∀ c, (s.connections c).registered = true → s.ownerContext = some c) ∧
      (∀ c, Gone s.trace c → (s.connections c).command ≠ some .handling) ∧
      ∀ before after c, s.trace = before ++ .effect c :: after → ¬ Gone before c := by
  have hsound : Sound s := guarded_run_invariant sound_step sound_initial hkeeps hrun
  refine ⟨fun c c' hc hc' => ?_, fun c => (hsound.settled c).owner, ?_, hsound.ordered⟩
  · have howner := (hsound.settled c).owner hc
    rw [(hsound.settled c').owner hc'] at howner
    cases howner
    rfl
  · intro c hg
    exact ((hsound.settled c).gone hg).2.2

/- A broadcast to the owner times out while its command is suspended in the
command handler; the command goes on when the cleanup is over. -/
theorem dropped_command_takes_effect :
    ¬ ∀ (as : List Step) (s : State), run step {} as = some s →
      ∀ before after c, s.trace = before ++ .effect c :: after → ¬ Gone before c := by
  intro h
  exact h [.connect, .receiveCommand 1, .broadcastFails 1, .cleanupEnds 1 true, .takeEffect 1] _ rfl
    [.admitted 1, .cleaned 1] [] 1 rfl (.inl (by simp))

/-- The command of an owner ends before its handler drops the connection. -/
theorem command_before_cleanup :
    ∃ s, run step {} [.connect, .receiveCommand 1, .takeEffect 1, .commandReturns 1,
        .responseEnds 1, .broadcastFails 1, .cleanupEnds 1 true, .connect] = some s ∧
      Gone s.trace 1 ∧ (s.connections 1).command ≠ some .handling := by
  refine ⟨_, rfl, .inl (by decide), (cleanup_is_final [.connect, .receiveCommand 1, .takeEffect 1,
    .commandReturns 1, .responseEnds 1, .broadcastFails 1, .cleanupEnds 1 true, .connect] _ ?_
    rfl).2.2.1 1 (.inl (by decide))⟩
  refine ⟨trivial, trivial, trivial, trivial, trivial, ?_, trivial, trivial, trivial⟩
  simp [Keeps, State.update]

end Keymasq.Ipc.Ownership
