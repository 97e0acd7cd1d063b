import Keymasq.Foundation.Custody
import Keymasq.Handoff.Server

/-!
# One owner for each descriptor

A descriptor that was received is with a handoff whose block is not left, or it was
returned by a claim, or closed. A handoff that is claimed again after a successful claim
returns its descriptors again.
-/

namespace Keymasq.Handoff.Owners
open Foundation Transition Custody Server

/-- The descriptors that nobody has claimed yet, while the block is not left. -/
def holds (h : Handoff) : List Nat :=
  match h.future with
  | .done fds => if h.claimed ∨ h.phase = .left then [] else fds
  | _ => []

def held (s : State) (id : Nat) : List Nat := (s.handoffs.get? id).elim [] holds

structure Sound (s : State) : Prop where
  fresh : ∀ id h, s.handoffs.get? id = some h → id < s.nextHandoff
  waiting : ∀ token id, s.pending.get? token = some id →
    ∃ h, s.handoffs.get? id = some h ∧ h.token = token ∧ h.future = .pending ∧ h.phase ≠ .left
  claimed : ∀ id h, s.handoffs.get? id = some h → h.claimed = true →
    (∃ fds, h.future = .done fds) ∧ h.phase ≠ .claiming
  owners : Exclusive (held s) (s.closed ++ s.returned) fun fd => fd < s.nextFd

/-! ## One handoff -/

section Fields

variable {s t : State} {id : Nat} {h h' : Handoff}

theorem get?_setHandoff (s : State) (id : Nat) (h : Handoff) (j : Nat) :
    (setHandoff s id h).handoffs.get? j = if j = id then some h else s.handoffs.get? j :=
  Dict.get?_insert _ _ _ _

theorem held_setHandoff (s : State) (id : Nat) (h : Handoff) (j : Nat) :
    held (setHandoff s id h) j = if j = id then holds h else held s j := by
  unfold held setHandoff
  rw [Dict.get?_insert]
  split
  · rfl
  · rfl

theorem held_of_get? (hget : s.handoffs.get? id = some h) : held s id = holds h := by
  unfold held
  rw [hget]
  rfl

/-- A handoff is replaced by another one of the same token. -/
theorem sound_update (hs : Sound s) (hget : s.handoffs.get? id = some h)
    (hhandoffs : ∀ j, t.handoffs.get? j = if j = id then some h' else s.handoffs.get? j)
    (hpending : ∀ token j, t.pending.get? token = some j → s.pending.get? token = some j)
    (hnext : t.nextHandoff = s.nextHandoff)
    (htoken : h'.token = h.token)
    (hwaits : t.pending.get? h.token = some id → h'.future = .pending ∧ h'.phase ≠ .left)
    (hclaimed : h'.claimed = true → (∃ fds, h'.future = .done fds) ∧ h'.phase ≠ .claiming)
    (howners : Exclusive (held t) (t.closed ++ t.returned) fun fd => fd < t.nextFd) : Sound t := by
  have hlt := hs.fresh id h hget
  refine ⟨fun j g hj => ?_, fun token j hj => ?_, fun j g hj => ?_, howners⟩
  · rw [hhandoffs] at hj
    rw [hnext]
    split at hj
    · omega
    · exact hs.fresh j g hj
  · obtain ⟨g, hg, htok, hfuture, hphase⟩ := hs.waiting token j (hpending token j hj)
    rw [hhandoffs]
    split
    · next heq =>
      rw [heq, hget] at hg
      cases hg
      rw [heq, ← htok] at hj
      exact ⟨h', rfl, by rw [htoken, htok], hwaits hj⟩
    · exact ⟨g, hg, htok, hfuture, hphase⟩
  · rw [hhandoffs] at hj
    split at hj
    · cases hj
      exact hclaimed
    · exact hs.claimed j g hj

theorem held_update
    (hhandoffs : ∀ j, t.handoffs.get? j = if j = id then some h' else s.handoffs.get? j) (j : Nat) :
    held t j = if j = id then holds h' else held s j := by
  unfold held
  rw [hhandoffs]
  split
  · rfl
  · rfl

theorem waiting_pending (hs : Sound s) (hget : s.handoffs.get? id = some h)
    (hpending : s.pending.get? h.token = some id) : h.future = .pending ∧ h.phase ≠ .left := by
  obtain ⟨g, hg, -, hfuture, hphase⟩ := hs.waiting _ _ hpending
  rw [hget] at hg
  cases hg
  exact ⟨hfuture, hphase⟩

/-- A phase changes, and the handoff holds the same. -/
theorem sound_setHandoff (hs : Sound s) (hget : s.handoffs.get? id = some h)
    (htoken : h'.token = h.token)
    (hwaits : s.pending.get? h.token = some id → h'.future = .pending ∧ h'.phase ≠ .left)
    (hclaimed : h'.claimed = true → (∃ fds, h'.future = .done fds) ∧ h'.phase ≠ .claiming)
    (hholds : holds h' = holds h) : Sound (setHandoff s id h') := by
  refine sound_update hs hget (get?_setHandoff s id h') (fun _ _ hj => hj) rfl htoken hwaits
    hclaimed (hs.owners.congr fun j => ?_)
  rw [held_setHandoff]
  split
  · next heq => rw [heq, held_of_get? hget, hholds]
  · rfl

theorem sound_claim (hs : Sound s)
    (honce : ∀ h, s.handoffs.get? id = some h → h.claimed = false)
    (hstep : claim s id = some t) : Sound t := by
  obtain ⟨h, hget, hstep⟩ := Option.bind_eq_some_iff.mp hstep
  split at hstep
  · next hphase =>
    have hunclaimed := honce h hget
    cases hstep
    refine sound_setHandoff hs hget rfl (fun hpending => ?_) (fun hclaimed => ?_) ?_
    · exact ⟨(waiting_pending hs hget hpending).1, by simp⟩
    · rw [hunclaimed] at hclaimed
      cases hclaimed
    · unfold holds
      simp [hphase]
  · cases hstep

theorem sound_interrupt (hs : Sound s) (hstep : interrupt s id = some t) : Sound t := by
  obtain ⟨h, hget, hstep⟩ := Option.bind_eq_some_iff.mp hstep
  split at hstep
  · next hphase =>
    cases hstep
    refine sound_setHandoff hs hget rfl (fun hpending => ?_) (fun hclaimed => ?_) ?_
    · exact ⟨(waiting_pending hs hget hpending).1, by simp⟩
    · exact absurd hphase (hs.claimed id h hget hclaimed).2
    · unfold holds
      simp [hphase]
  · cases hstep

/-- What a claim returns leaves the handoff. -/
theorem sound_wake (hs : Sound s) (hstep : wake s id = some t) : Sound t := by
  obtain ⟨h, hget, hstep⟩ := Option.bind_eq_some_iff.mp hstep
  split at hstep
  · next hphase =>
    have hunclaimed : h.claimed = false := by
      by_contra hclaimed
      rw [Bool.not_eq_false] at hclaimed
      exact (hs.claimed id h hget hclaimed).2 hphase
    cases hfuture : h.future with
    | pending =>
      rw [hfuture] at hstep
      cases hstep
    | cancelled =>
      rw [hfuture] at hstep
      cases hstep
      refine sound_setHandoff hs hget rfl (fun hpending => ?_) (fun hclaimed => ?_) ?_
      · rw [(waiting_pending hs hget hpending).1] at hfuture
        cases hfuture
      · rw [hunclaimed] at hclaimed
        cases hclaimed
      · unfold holds
        simp [hfuture]
    | done fds =>
      rw [hfuture] at hstep
      cases hstep
      let h' : Handoff := { token := h.token, future := .done fds, claimed := true }
      refine sound_update hs hget (get?_setHandoff s id h') (fun _ _ hj => hj) rfl rfl
        (fun hpending => ?_) (fun _ => ⟨⟨fds, rfl⟩, by simp [h']⟩) ?_
      · rw [(waiting_pending hs hget hpending).1] at hfuture
        cases hfuture
      · have hfds : held s id = fds := by
          rw [held_of_get? hget]
          unfold holds
          simp [hfuture, hunclaimed, hphase]
        have hheld (j : Nat) := held_update (s := s) (t := { setHandoff s id h' with
          returned := s.returned ++ fds }) (get?_setHandoff s id h') j
        have hspent : Exclusive (held { setHandoff s id h' with returned := s.returned ++ fds })
            (s.closed ++ s.returned ++ fds) fun fd => fd < s.nextFd := hs.owners.spend id
          (by rw [hfds, hheld id]; simp [holds, h']) fun j hj => (hheld j).trans (if_neg hj)
        rw [List.append_assoc] at hspent
        exact hspent
  · cases hstep

end Fields

/-! ## The server -/

section Steps

variable {s t : State} {id : Nat}

/-- Only connections change, or handoffs stop to wait. -/
theorem sound_fewer (hs : Sound s) (hhandoffs : t.handoffs = s.handoffs)
    (hpending : ∀ token j, t.pending.get? token = some j → s.pending.get? token = some j)
    (hnext : t.nextHandoff = s.nextHandoff)
    (howners : Exclusive (held s) (t.closed ++ t.returned) fun fd => fd < t.nextFd) : Sound t := by
  have hheld : held t = held s := by
    funext j
    unfold held
    rw [hhandoffs]
  refine ⟨fun j g hj => ?_, fun token j hj => ?_, fun j g hj => ?_, ?_⟩
  · rw [hhandoffs] at hj
    rw [hnext]
    exact hs.fresh j g hj
  · rw [hhandoffs]
    exact hs.waiting token j (hpending token j hj)
  · rw [hhandoffs] at hj
    exact hs.claimed j g hj
  · rwa [hheld]

theorem sound_expect (hs : Sound s) (token : String) : Sound (expect s token) := by
  unfold expect
  split
  · exact hs
  · have hnone : s.handoffs.get? s.nextHandoff = none := by
      cases hget : s.handoffs.get? s.nextHandoff with
      | none => rfl
      | some h => exact absurd (hs.fresh _ h hget) (Nat.lt_irrefl _)
    refine ⟨fun j g hj => ?_, fun token' j hj => ?_, fun j g hj => ?_, ?_⟩
    · change (s.handoffs.insert s.nextHandoff { token := token }).get? j = some g at hj
      change j < s.nextHandoff + 1
      rw [Dict.get?_insert] at hj
      split at hj
      · omega
      · have hlt := hs.fresh j g hj
        omega
    · change (s.pending.insert token s.nextHandoff).get? token' = some j at hj
      change ∃ h, (s.handoffs.insert s.nextHandoff { token := token }).get? j = some h ∧ _
      rw [Dict.get?_insert] at hj ⊢
      split at hj
      · next heq =>
        cases hj
        rw [if_pos rfl]
        exact ⟨_, rfl, heq.symm, rfl, by simp⟩
      · obtain ⟨h, hget, hrest⟩ := hs.waiting token' j hj
        have hne : j ≠ s.nextHandoff := Nat.ne_of_lt (hs.fresh j h hget)
        rw [if_neg hne]
        exact ⟨h, hget, hrest⟩
    · change (s.handoffs.insert s.nextHandoff { token := token }).get? j = some g at hj
      rw [Dict.get?_insert] at hj
      split at hj
      · cases hj
        intro hclaimed
        cases hclaimed
      · exact hs.claimed j g hj
    · refine hs.owners.congr fun j => ?_
      change held (setHandoff s s.nextHandoff { token := token }) j = _
      rw [held_setHandoff]
      split
      · next heq =>
        unfold held
        rw [heq, hnone]
        rfl
      · rfl

/-- At the end of the block the descriptors that nobody claimed are closed. -/
theorem sound_leave (hs : Sound s) (hstep : leave s id = some t) : Sound t := by
  obtain ⟨h, hget, hstep⟩ := Option.bind_eq_some_iff.mp hstep
  split at hstep
  · next hphase =>
    simp only [Option.some.injEq] at hstep
    have hpending (token : String) (j : Nat)
        (hj : (if s.pending.get? h.token = some id then s.pending.erase h.token
          else s.pending).get? token = some j) : s.pending.get? token = some j := by
      split at hj
      · rw [Dict.get?_erase] at hj
        split at hj
        · cases hj
        · exact hj
      · exact hj
    have hgone : (if s.pending.get? h.token = some id then s.pending.erase h.token
        else s.pending).get? h.token ≠ some id := by
      split
      · rw [Dict.get?_erase_self]
        simp
      · assumption
    generalize (if s.pending.get? h.token = some id then s.pending.erase h.token
      else s.pending) = pending at hstep hpending hgone
    have hclaimed := hs.claimed id h hget
    -- The handoff holds nothing after it is left, whatever its future is.
    have hupdate (u : State) (h' : Handoff)
        (hhandoffs : ∀ j, u.handoffs.get? j = if j = id then some h' else s.handoffs.get? j)
        (hsame : u = { s with pending := pending, handoffs := u.handoffs, closed := u.closed })
        (htoken : h'.token = h.token) (hleft : h'.phase = .left)
        (hclaim : h'.claimed = true → ∃ fds, h'.future = .done fds)
        (hclosed : u.closed = s.closed ++ holds h) : Sound u := by
      have hheld := held_update hhandoffs
      have hempty : holds h' = [] := by
        unfold holds
        split
        · simp [hleft]
        · rfl
      have hspent : Exclusive (held u) (s.closed ++ s.returned ++ holds h) fun fd => fd < s.nextFd :=
        hs.owners.spend id
        (by rw [held_of_get? hget, hheld id]; simp [hempty])
        fun j hj => (hheld j).trans (if_neg hj)
      have hreturned : u.returned = s.returned := by rw [hsame]
      have hfd : u.nextFd = s.nextFd := by rw [hsame]
      refine sound_update hs hget hhandoffs (by rwa [hsame]) (by rw [hsame]) htoken
        (fun hwaits => ?_)
        (fun hclaimed => ⟨hclaim hclaimed, by simp [hleft]⟩) ?_
      · rw [hsame] at hwaits
        exact absurd hwaits hgone
      · rw [hclosed, hreturned, hfd]
        refine hspent.perm ?_
        rw [List.append_assoc, List.append_assoc]
        exact List.Perm.append_left _ List.perm_append_comm
    subst hstep
    unfold Server.discard
    simp only [hget]
    split
    · next hc =>
      refine hupdate _ { h with phase := .left } (fun j => ?_) rfl rfl rfl
        (fun _ => (hclaimed hc).1) ?_
      · simp only [Dict.getD, hget, Option.getD_some]
        exact get?_setHandoff _ _ _ _
      · unfold holds
        split
        · simp [hc, setHandoff]
        · simp [setHandoff]
    · next hc =>
      split
      · next fds hfuture =>
        refine hupdate _ { h with phase := .left } (fun j => ?_) rfl rfl rfl
          (fun hclaim => absurd hclaim hc) ?_
        · simp only [closeAll, Dict.getD, hget, Option.getD_some]
          exact get?_setHandoff _ _ _ _
        · unfold holds
          simp [hfuture, hc, hphase, setHandoff, closeAll]
      · next hfuture =>
        refine hupdate _ { h with future := .cancelled, phase := .left } (fun j => ?_) rfl rfl rfl
          (fun hclaim => absurd hclaim hc) ?_
        · rw [get?_setHandoff]
          split
          · simp only [setHandoff, Dict.getD, Dict.get?_insert_self, Option.getD_some]
          · next hne => rw [get?_setHandoff, if_neg hne]
        · unfold holds
          simp [hfuture, setHandoff]
      · next hfuture =>
        refine hupdate _ { h with phase := .left } (fun j => ?_) rfl rfl rfl
          (fun hclaim => absurd hclaim hc) ?_
        · simp only [Dict.getD, hget, Option.getD_some]
          exact get?_setHandoff _ _ _ _
        · unfold holds
          simp [hfuture, setHandoff]
  · cases hstep

/-- A handoff without descriptors is only cancelled. -/
theorem discard_waiting {h : Handoff} (hget : s.handoffs.get? id = some h)
    (hunclaimed : h.claimed = false) (hfuture : h.future = .pending ∨ h.future = .cancelled) :
    Server.discard s id = { s with handoffs := (Server.discard s id).handoffs } ∧
      ∀ j, (Server.discard s id).handoffs.get? j =
        (s.handoffs.get? j).map fun h => if j = id then { h with future := .cancelled } else h := by
  unfold Server.discard
  simp only [hget, hunclaimed]
  obtain hfuture | hfuture := hfuture
  · simp only [hfuture]
    refine ⟨rfl, fun j => ?_⟩
    rw [if_neg (by simp), get?_setHandoff]
    split
    · next heq =>
      rw [heq, hget, Option.map_some, hunclaimed]
    · simp
  · simp only [hfuture]
    refine ⟨rfl, fun j => ?_⟩
    rw [if_neg (by simp)]
    split
    · next heq =>
      rw [heq, hget, Option.map_some, ← hfuture]
    · simp

theorem foldl_discard (ids : List Nat) (s : State)
    (hwaiting : ∀ id ∈ ids, ∃ h, s.handoffs.get? id = some h ∧ h.claimed = false ∧
      (h.future = .pending ∨ h.future = .cancelled)) :
    ids.foldl Server.discard s = { s with handoffs := (ids.foldl Server.discard s).handoffs } ∧
      ∀ j, (ids.foldl Server.discard s).handoffs.get? j = (s.handoffs.get? j).map fun h =>
        if j ∈ ids then { h with future := .cancelled } else h := by
  induction ids generalizing s with
  | nil => exact ⟨rfl, fun j => by simp⟩
  | cons id ids ih =>
    obtain ⟨h, hget, hunclaimed, hfuture⟩ := hwaiting id List.mem_cons_self
    obtain ⟨hsame, hhandoffs⟩ := discard_waiting hget hunclaimed hfuture
    obtain ⟨hsame', hhandoffs'⟩ := ih (Server.discard s id) fun j hj => by
      obtain ⟨g, hg, hclaim, hgfuture⟩ := hwaiting j (List.mem_cons_of_mem _ hj)
      rw [hhandoffs, hg]
      by_cases hji : j = id
      · exact ⟨{ g with future := .cancelled }, by rw [Option.map_some, if_pos hji], hclaim,
          .inr rfl⟩
      · exact ⟨g, by rw [Option.map_some, if_neg hji], hclaim, hgfuture⟩
    rw [List.foldl_cons]
    refine ⟨?_, fun j => ?_⟩
    · rw [hsame', hsame]
    · rw [hhandoffs', hhandoffs, Option.map_map]
      congr 1
      funext g
      simp only [Function.comp_apply, List.mem_cons]
      by_cases hji : j = id
      · by_cases hmem : j ∈ ids
        · simp [hji]
        · simp [hji]
      · simp [hji]

theorem sound_stop (hs : Sound s) : Sound (stop s) := by
  have hwaiting (id : Nat) (hid : id ∈ s.pending.values) :
      ∃ h, s.handoffs.get? id = some h ∧ h.claimed = false ∧
        (h.future = .pending ∨ h.future = .cancelled) := by
    obtain ⟨token, hget⟩ := Dict.mem_values_iff.mp hid
    obtain ⟨h, hh, -, hfuture, -⟩ := hs.waiting token id hget
    refine ⟨h, hh, ?_, .inl hfuture⟩
    by_contra hclaimed
    rw [Bool.not_eq_false] at hclaimed
    obtain ⟨⟨fds, hdone⟩, -⟩ := hs.claimed id h hh hclaimed
    rw [hfuture] at hdone
    cases hdone
  obtain ⟨hsame, hhandoffs⟩ := foldl_discard s.pending.values
    { s with listening := false, connections := ∅ } hwaiting
  unfold stop
  simp only
  generalize s.pending.values.foldl Server.discard
    { s with listening := false, connections := ∅ } = u at hsame hhandoffs ⊢
  simp only at hhandoffs
  have hget {j : Nat} {g : Handoff} (hj : u.handoffs.get? j = some g) :
      ∃ h, s.handoffs.get? j = some h ∧ g.claimed = h.claimed ∧ g.phase = h.phase ∧
        (g.future = h.future ∨ j ∈ s.pending.values ∧ g.future = .cancelled) := by
    rw [hhandoffs] at hj
    obtain ⟨h, hh, heq⟩ := Option.map_eq_some_iff.mp hj
    refine ⟨h, hh, ?_⟩
    split at heq
    · next hmem =>
      rw [← heq]
      exact ⟨rfl, rfl, .inr ⟨hmem, rfl⟩⟩
    · rw [← heq]
      exact ⟨rfl, rfl, .inl rfl⟩
  refine ⟨fun j g hj => ?_, fun token j hj => ?_, fun j g hj => ?_, ?_⟩
  · obtain ⟨h, hh, -⟩ := hget hj
    rw [hsame]
    exact hs.fresh j h hh
  · simp at hj
  · obtain ⟨h, hh, hclaim, hphase, hfuture⟩ := hget hj
    intro hclaimed
    rw [hclaim] at hclaimed
    obtain ⟨⟨fds, hdone⟩, hclaiming⟩ := hs.claimed j h hh hclaimed
    obtain hfuture | ⟨hmem, -⟩ := hfuture
    · exact ⟨⟨fds, hfuture.trans hdone⟩, by rwa [hphase]⟩
    · obtain ⟨h', hh', hunclaimed, -⟩ := hwaiting j hmem
      rw [hh] at hh'
      cases hh'
      rw [hclaimed] at hunclaimed
      cases hunclaimed
  · have howners := hs.owners
    rw [hsame]
    refine howners.congr fun j => ?_
    unfold held
    rw [hhandoffs]
    cases hj : s.handoffs.get? j with
    | none => rfl
    | some h =>
      simp only [Option.map_some, Option.elim_some]
      split
      · next hmem =>
        obtain ⟨h', hh', -, hfuture⟩ := hwaiting j hmem
        rw [hj] at hh'
        cases hh'
        unfold holds
        obtain hfuture | hfuture := hfuture
        · simp [hfuture]
        · simp [hfuture]
      · rfl

/-- The new descriptors go to one handoff, or are closed. -/
theorem sound_deliver {m : Message} (hs : Sound s) :
    Sound (deliver { s with nextFd := s.nextFd + m.fds } m (List.range' s.nextFd m.fds)) := by
  have hnodup : (List.range' s.nextFd m.fds).Nodup := List.nodup_range'
  have hfresh (fd : Nat) (hfd : fd ∈ List.range' s.nextFd m.fds) : ¬ fd < s.nextFd := by
    rw [List.mem_range'_1] at hfd
    omega
  have hissued : (fun fd => fd < s.nextFd ∨ fd ∈ List.range' s.nextFd m.fds) =
      fun fd => fd < s.nextFd + m.fds := by
    funext fd
    rw [List.mem_range'_1]
    exact propext ⟨by omega, by omega⟩
  have hwaste := hs.owners.waste hnodup hfresh
  rw [hissued] at hwaste
  have hclosed (pending : Dict String Nat)
      (hpending : ∀ token j, pending.get? token = some j → s.pending.get? token = some j) :
      Sound (closeAll { s with nextFd := s.nextFd + m.fds, pending := pending }
        (List.range' s.nextFd m.fds)) := by
    refine sound_fewer hs rfl hpending rfl (hwaste.perm ?_)
    change (s.closed ++ s.returned ++ _).Perm (s.closed ++ _ ++ s.returned)
    rw [List.append_assoc, List.append_assoc]
    exact List.Perm.append_left _ List.perm_append_comm
  unfold deliver
  split
  · exact hclosed s.pending fun _ _ hj => hj
  · split
    · exact hclosed s.pending fun _ _ hj => hj
    · next token _ =>
      split
      · exact hclosed s.pending fun _ _ hj => hj
      · next id hid =>
        have hpending (token' : String) (j : Nat)
            (hj : (s.pending.erase token).get? token' = some j) :
            s.pending.get? token' = some j := by
          rw [Dict.get?_erase] at hj
          split at hj
          · cases hj
          · exact hj
        obtain ⟨h, hget, htoken, hfuture, hphase⟩ := hs.waiting token id hid
        have hunclaimed : h.claimed = false := by
          by_contra hclaimed
          rw [Bool.not_eq_false] at hclaimed
          obtain ⟨⟨fds, hdone⟩, -⟩ := hs.claimed id h hget hclaimed
          rw [hfuture] at hdone
          cases hdone
        simp only [hget, hfuture, if_true]
        let h' : Handoff := { h with future := .done (List.range' s.nextFd m.fds) }
        refine sound_update hs hget (get?_setHandoff _ id h') hpending rfl rfl
          (fun hwaits => ?_) (fun hclaimed => ?_) ?_
        · change (s.pending.erase token).get? h.token = some id at hwaits
          rw [htoken, Dict.get?_erase_self] at hwaits
          cases hwaits
        · change h.claimed = true at hclaimed
          rw [hunclaimed] at hclaimed
          cases hclaimed
        · have hheld := held_update (s := s) (t := setHandoff { s with
            nextFd := s.nextFd + m.fds, pending := s.pending.erase token } id h')
            (get?_setHandoff _ id h')
          have hgive : Exclusive (held (setHandoff { s with
              nextFd := s.nextFd + m.fds, pending := s.pending.erase token } id h')) _ _ :=
            hs.owners.give id hnodup hfresh
            (by rw [held_of_get? hget, hheld id]; simp [holds, h', hunclaimed, hphase, hfuture])
            fun j hj => (hheld j).trans (if_neg hj)
          rw [hissued] at hgive
          exact hgive

theorem sound_drop (hs : Sound s) (connection : Nat) : Sound (drop s connection) :=
  sound_fewer hs rfl (fun _ _ hj => hj) rfl hs.owners

theorem receive_cases {connection : Nat} {received : Received}
    (hstep : receive s connection received = some t) :
    s.connections.contains connection = true ∧
      (t = s ∨ t = drop s connection ∨ ∃ m, received = .message m ∧
        t = deliver { drop s connection with nextFd := s.nextFd + m.fds } m
          (List.range' s.nextFd m.fds)) := by
  cases received with
  | blocked =>
    obtain ⟨hopen, rfl⟩ := enabled_eq_some.mp hstep
    exact ⟨hopen, .inl rfl⟩
  | fails =>
    obtain ⟨hopen, rfl⟩ := enabled_eq_some.mp hstep
    exact ⟨hopen, .inr (.inl rfl)⟩
  | message m =>
    obtain ⟨hopen, rfl⟩ := enabled_eq_some.mp hstep
    exact ⟨hopen, .inr (.inr ⟨m, rfl, rfl⟩)⟩

/-- Nobody claims a handoff again after a claim of it succeeded. -/
def ClaimsOnce (s : State) : Step → Prop
  | .claim id => ∀ h, s.handoffs.get? id = some h → h.claimed = false
  | _ => True

instance decidableClaimsOnce (s : State) : ∀ a, Decidable (ClaimsOnce s a)
  | .claim id => inferInstanceAs (Decidable (∀ h ∈ s.handoffs.get? id, h.claimed = false))
  | .start | .stop | .expect _ | .wake _ | .timeout _ | .cancel _ | .leave _ | .accept _
  | .drop _ | .receive _ _ => inferInstanceAs (Decidable True)

theorem sound_step {a : Step} (hs : Sound s) (honce : ClaimsOnce s a)
    (hstep : step s a = some t) : Sound t := by
  cases a with
  | start =>
    cases hstep
    exact sound_fewer hs rfl (fun _ _ hj => hj) rfl hs.owners
  | stop =>
    cases hstep
    exact sound_stop hs
  | expect token =>
    cases hstep
    exact sound_expect hs token
  | claim id => exact sound_claim hs honce hstep
  | wake id => exact sound_wake hs hstep
  | timeout id => exact sound_interrupt hs hstep
  | cancel id => exact sound_interrupt hs hstep
  | leave id => exact sound_leave hs hstep
  | accept uid =>
    change accept s uid = some t at hstep
    unfold accept at hstep
    split at hstep
    · split at hstep
      · cases hstep
        exact sound_fewer hs rfl (fun _ _ hj => hj) rfl hs.owners
      · cases hstep
        exact hs
    · cases hstep
  | drop connection =>
    cases hstep
    exact sound_drop hs connection
  | receive connection received =>
    obtain ⟨-, rfl | rfl | ⟨m, -, rfl⟩⟩ := receive_cases hstep
    · exact hs
    · exact sound_drop hs connection
    · exact sound_deliver (sound_drop hs connection)

theorem sound_initial : Sound {} := by
  refine ⟨fun id h hget => ?_, fun token id hget => ?_, fun id h hget => ?_, ?_⟩
  · simp at hget
  · simp at hget
  · simp at hget
  · have hempty := exclusive_empty (ι := Nat) (α := Nat)
    have hissued : (fun _ : Nat => False) = fun fd => fd < ({} : State).nextFd := by
      funext fd
      simp
    rw [hissued] at hempty
    exact hempty.congr fun _ => rfl

end Steps

/-! ## What is accepted -/

/-- Only connections of root are kept. -/
structure Trusted (s : State) : Prop where
  uid : ∀ connection uid, s.connections.get? connection = some uid → uid = 0
  trusted : s.trustedUid = 0

/-- The step gave the handoff its descriptors. -/
def Accepts (s t : State) (id : Nat) : Prop :=
  ∃ h fds, t.handoffs.get? id = some h ∧ h.future = .done fds ∧
    ∀ h', s.handoffs.get? id = some h' → h'.future ≠ .done fds

section Accepts

variable {s t : State} {id : Nat}

/-- No future is newly done. -/
def Kept (s t : State) : Prop :=
  ∀ id h fds, t.handoffs.get? id = some h → h.future = .done fds →
    ∃ h', s.handoffs.get? id = some h' ∧ h'.future = .done fds

theorem Kept.not_accepts (h : Kept s t) : ¬ Accepts s t id := by
  intro haccepts
  obtain ⟨g, fds, hg, hdone, hnew⟩ := haccepts
  obtain ⟨g', hg', hdone'⟩ := h id g fds hg hdone
  exact hnew g' hg' hdone'

theorem kept_same (hhandoffs : t.handoffs = s.handoffs) : Kept s t := by
  intro j g fds hg hdone
  rw [hhandoffs] at hg
  exact ⟨g, hg, hdone⟩

theorem Kept.trans {u : State} (h : Kept s t) (h' : Kept t u) : Kept s u := by
  intro j g fds hg hdone
  obtain ⟨g', hg', hdone'⟩ := h' j g fds hg hdone
  exact h j g' fds hg' hdone'

theorem kept_setHandoff {h h' : Handoff} (hget : s.handoffs.get? id = some h)
    (hfuture : ∀ fds, h'.future = .done fds → h.future = .done fds) :
    Kept s (setHandoff s id h') := by
  intro j g fds hg hdone
  rw [get?_setHandoff] at hg
  split at hg
  · next heq =>
    cases hg
    rw [heq]
    exact ⟨h, hget, hfuture fds hdone⟩
  · exact ⟨g, hg, hdone⟩

theorem kept_discard (s : State) (id : Nat) : Kept s (Server.discard s id) := by
  unfold Server.discard
  split
  · exact kept_same rfl
  · next h hget =>
    split
    · exact kept_same rfl
    · split
      · exact kept_same rfl
      · exact kept_setHandoff hget fun fds hdone => by cases hdone
      · exact kept_same rfl

theorem kept_foldl (ids : List Nat) (s : State) : Kept s (ids.foldl Server.discard s) := by
  induction ids generalizing s with
  | nil => exact kept_same rfl
  | cons id ids ih => exact (kept_discard s id).trans (ih _)

theorem kept_leave (hstep : leave s id = some t) : Kept s t := by
  obtain ⟨h, hget, hstep⟩ := Option.bind_eq_some_iff.mp hstep
  split at hstep
  · simp only [Option.some.injEq] at hstep
    subst hstep
    have hkept := (kept_same (s := s) rfl).trans (kept_discard { s with
      pending := if s.pending.get? h.token = some id then s.pending.erase h.token
        else s.pending } id)
    generalize Server.discard _ id = u at hkept ⊢
    intro j g fds hg hdone
    rw [get?_setHandoff] at hg
    split at hg
    · next heq =>
      cases hg
      rw [heq]
      cases hu : u.handoffs.get? id with
      | none =>
        rw [Dict.getD, hu] at hdone
        exact ⟨h, hget, hdone⟩
      | some g =>
        rw [Dict.getD, hu] at hdone
        exact hkept id g fds hu hdone
    · exact hkept j g fds hg hdone
  · cases hstep

theorem kept_expect (s : State) (token : String) : Kept s (expect s token) := by
  unfold expect
  split
  · exact kept_same rfl
  · intro j g fds hg hdone
    change (s.handoffs.insert s.nextHandoff { token := token }).get? j = some g at hg
    rw [Dict.get?_insert] at hg
    split at hg
    · cases hg
      cases hdone
    · exact ⟨g, hg, hdone⟩

/-- A claim leaves the future as it is. -/
theorem kept_wake (hstep : wake s id = some t) : Kept s t := by
  obtain ⟨h, hget, hstep⟩ := Option.bind_eq_some_iff.mp hstep
  split at hstep
  · cases hfuture : h.future with
    | pending =>
      rw [hfuture] at hstep
      cases hstep
    | cancelled =>
      rw [hfuture] at hstep
      cases hstep
      exact kept_setHandoff hget fun fds hdone => by cases hdone
    | done received =>
      rw [hfuture] at hstep
      cases hstep
      let h' : Handoff := { token := h.token, future := .done received, claimed := true }
      have hkept : Kept s (setHandoff s id h') :=
        kept_setHandoff hget fun fds hdone => hfuture.trans hdone
      exact hkept.trans (kept_same rfl)
  · cases hstep

theorem trusted_same (hs : Trusted s) (hconnections : t.connections = s.connections)
    (htrusted : t.trustedUid = s.trustedUid) : Trusted t :=
  ⟨fun c uid hc => hs.uid c uid (hconnections ▸ hc), htrusted.trans hs.trusted⟩

theorem trusted_discard (hs : Trusted s) (id : Nat) : Trusted (Server.discard s id) := by
  unfold Server.discard
  split
  · exact hs
  · split
    · exact hs
    · split
      · exact trusted_same hs rfl rfl
      · exact trusted_same hs rfl rfl
      · exact hs

theorem trusted_foldl (ids : List Nat) (hs : Trusted s) :
    Trusted (ids.foldl Server.discard s) := by
  induction ids generalizing s with
  | nil => exact hs
  | cons id ids ih => exact ih (trusted_discard hs id)

theorem trusted_drop (hs : Trusted s) (connection : Nat) : Trusted (drop s connection) := by
  refine ⟨fun c uid hc => ?_, hs.trusted⟩
  change (s.connections.erase connection).get? c = some uid at hc
  rw [Dict.get?_erase] at hc
  split at hc
  · cases hc
  · exact hs.uid c uid hc

theorem trusted_deliver (hs : Trusted s) (m : Message) (received : List Nat) :
    Trusted (deliver s m received) := by
  unfold deliver
  dsimp only
  split
  · exact trusted_same hs rfl rfl
  · split
    · exact trusted_same hs rfl rfl
    · split
      · exact trusted_same hs rfl rfl
      · split
        · exact trusted_same hs rfl rfl
        · split
          · exact trusted_same hs rfl rfl
          · exact trusted_same hs rfl rfl

theorem trusted_step {a : Step} (hs : Trusted s) (hstep : step s a = some t) : Trusted t := by
  cases a with
  | start =>
    cases hstep
    exact trusted_same hs rfl rfl
  | stop =>
    cases hstep
    have hstopped : Trusted { s with listening := false, connections := ∅ } :=
      ⟨fun c uid hc => by simp at hc, hs.trusted⟩
    exact trusted_same (trusted_foldl s.pending.values hstopped) rfl rfl
  | expect token =>
    cases hstep
    unfold expect
    split
    · exact hs
    · exact trusted_same hs rfl rfl
  | claim id | timeout id | cancel id =>
    obtain ⟨h, -, hstep⟩ := Option.bind_eq_some_iff.mp hstep
    obtain ⟨-, rfl⟩ := enabled_eq_some.mp hstep
    exact trusted_same hs rfl rfl
  | wake id =>
    obtain ⟨h, -, hstep⟩ := Option.bind_eq_some_iff.mp hstep
    obtain ⟨-, hstep⟩ := Option.ite_none_right_eq_some.mp hstep
    split at hstep
    · cases hstep
    · cases hstep
      exact trusted_same hs rfl rfl
    · cases hstep
      exact trusted_same hs rfl rfl
  | leave id =>
    obtain ⟨h, -, hstep⟩ := Option.bind_eq_some_iff.mp hstep
    obtain ⟨-, rfl⟩ := enabled_eq_some.mp hstep
    have hremoved : Trusted { s with
        pending := if s.pending.get? h.token = some id then s.pending.erase h.token
          else s.pending } := trusted_same hs rfl rfl
    exact trusted_same (trusted_discard hremoved id) rfl rfl
  | accept uid =>
    obtain ⟨-, hstep⟩ := Option.ite_none_right_eq_some.mp hstep
    split at hstep
    · cases hstep
      refine ⟨fun c uid hc => ?_, hs.trusted⟩
      change (s.connections.insert s.nextConnection s.trustedUid).get? c = some uid at hc
      rw [Dict.get?_insert] at hc
      split at hc
      · cases hc
        exact hs.trusted
      · exact hs.uid c uid hc
    · cases hstep
      exact hs
  | drop connection =>
    cases hstep
    exact trusted_drop hs connection
  | receive connection received =>
    obtain ⟨-, rfl | rfl | ⟨m, -, rfl⟩⟩ := receive_cases hstep
    · exact hs
    · exact trusted_drop hs connection
    · have hnumbered : Trusted { drop s connection with nextFd := s.nextFd + m.fds } :=
        trusted_same (trusted_drop hs connection) rfl rfl
      exact trusted_deliver hnumbered m _

/-- A descriptor is accepted for a token that is pending, from a trusted peer. -/
theorem accepts_pending {a : Step} (hs : Trusted s) (hstep : step s a = some t)
    (haccepts : Accepts s t id) :
    ∃ connection m token, a = .receive connection (.message m) ∧ m.token = some token ∧
      s.pending.get? token = some id ∧ s.connections.get? connection = some 0 := by
  cases a with
  | start
  | drop connection =>
    cases hstep
    exact absurd haccepts (kept_same rfl).not_accepts
  | stop =>
    cases hstep
    exact absurd haccepts ((kept_same (s := s) rfl).trans (kept_foldl _ { s with
      listening := false, connections := ∅ })).not_accepts
  | expect token =>
    cases hstep
    exact absurd haccepts (kept_expect s token).not_accepts
  | claim j =>
    obtain ⟨h, hget, hstep⟩ := Option.bind_eq_some_iff.mp hstep
    obtain ⟨-, rfl⟩ := enabled_eq_some.mp hstep
    have hkept : Kept s (setHandoff s j { h with phase := .claiming }) :=
      kept_setHandoff hget fun _ hdone => hdone
    exact absurd haccepts hkept.not_accepts
  | wake j => exact absurd haccepts (kept_wake hstep).not_accepts
  | timeout j
  | cancel j =>
    obtain ⟨h, hget, hstep⟩ := Option.bind_eq_some_iff.mp hstep
    obtain ⟨-, rfl⟩ := enabled_eq_some.mp hstep
    have hkept : Kept s (setHandoff s j { h with phase := .inside }) :=
      kept_setHandoff hget fun _ hdone => hdone
    exact absurd haccepts hkept.not_accepts
  | leave j => exact absurd haccepts (kept_leave hstep).not_accepts
  | accept uid =>
    have hsame : t.handoffs = s.handoffs := by
      obtain ⟨-, hstep⟩ := Option.ite_none_right_eq_some.mp hstep
      split at hstep
      · cases hstep
        rfl
      · cases hstep
        rfl
    exact absurd haccepts (kept_same hsame).not_accepts
  | receive connection received =>
    obtain ⟨hopen, rfl | rfl | ⟨m, rfl, rfl⟩⟩ := receive_cases hstep
    · exact absurd haccepts (kept_same rfl).not_accepts
    · exact absurd haccepts (kept_same rfl).not_accepts
    · have hpeer : s.connections.get? connection = some 0 := by
        rw [Dict.contains_iff] at hopen
        obtain ⟨uid, huid⟩ := Option.ne_none_iff_exists'.mp fun hnone =>
          Dict.get?_eq_none_iff.mp hnone hopen
        rw [huid, hs.uid connection uid huid]
      unfold deliver at haccepts
      split at haccepts
      · exact absurd haccepts ((kept_same rfl).not_accepts)
      · split at haccepts
        · exact absurd haccepts ((kept_same rfl).not_accepts)
        · next token htoken =>
          split at haccepts
          · exact absurd haccepts ((kept_same rfl).not_accepts)
          · next j hj =>
            simp only at haccepts
            split at haccepts
            · exact absurd haccepts ((kept_same rfl).not_accepts)
            · next h hget =>
              split at haccepts
              · refine ⟨connection, m, token, rfl, htoken, ?_, hpeer⟩
                by_cases hji : id = j
                · rw [hji]
                  exact hj
                · obtain ⟨g, fds, hg, hdone, hnew⟩ := haccepts
                  rw [get?_setHandoff, if_neg hji] at hg
                  exact absurd hdone (hnew g hg)
              · exact absurd haccepts ((kept_same rfl).not_accepts)

end Accepts

/-! ## Runs -/

/-- Closed once or returned by one claim, once, and not both. -/
def Gone (s : State) (fd : Nat) : Prop := s.closed.count fd + s.returned.count fd = 1

/-- A descriptor arrives for a claim, and is returned by it. -/
def claimRun : List Step :=
  [.start, .expect "0123456789abcdef0123456789abcdef", .accept (some 0), .claim 0,
    .receive 0 (.message
      { fds := 1, truncated := false, token := some "0123456789abcdef0123456789abcdef" }),
    .wake 0]

end Keymasq.Handoff.Owners
