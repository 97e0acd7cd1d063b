import Mathlib.Data.List.Pairwise
import Keymasq.Session.Apply

/-!
# Commands and answers on the daemon connection

Request numbers only grow and the daemon handles commands in that order. What
it has installed, accepted or answered is therefore older than every command
that is still under way.
-/

namespace Keymasq.Session.Channel
open Foundation Foundation.Transition References Apply

variable {Content S : Type} {ser : Serializer Content S} {x y : System Content S}

/- The number was given out and is below everything that is still under way. -/
def Handled (x : System Content S) (requestId : ℕ) : Prop :=
  requestId ≤ x.requestCounter ∧ ∀ q ∈ x.requests, requestId < q.requestId

/- An answer tells truly what the daemon did with the payload of the apply that waits for it. -/
def Truthful (x : System Content S) (payload : Payload Content) : Verdict → Prop
  | .ok => True
  | .waiting => payload.target ≠ .combos ∧ payload ∉ x.accepted
  | .error => payload ∉ x.accepted
  | .unused _ => False

/-- Where the numbers of commands, answers and applies stand. -/
structure Ordered (x : System Content S) : Prop where
  requests : x.requests.Pairwise (·.requestId < ·.requestId)
  sent : ∀ q ∈ x.requests, q.requestId ≤ x.requestCounter
  payload : ∀ q ∈ x.requests, ∀ p, q.command = .set p → p.requestId = q.requestId
  responses : ∀ r ∈ x.responses, Handled x r.requestId
  installed : ∀ t p, x.installed.get? t = some p → p.target = t ∧ Handled x p.requestId
  accepted : ∀ p ∈ x.accepted, Handled x p.requestId
  acknowledged : ∀ t n, x.acknowledged.get? t = some n → Handled x n
  applies : x.applies.Pairwise (·.payload.requestId > ·.payload.requestId)
  applied : ∀ a ∈ x.applies, a.payload.requestId ≤ x.requestCounter
  matching : ∀ q ∈ x.requests, ∀ a ∈ x.applies, a.payload.requestId = q.requestId →
    q.command = .set a.payload
  verdict : ∀ r ∈ x.responses, ∀ a ∈ x.applies, a.payload.requestId = r.requestId →
    Truthful x a.payload r.verdict

theorem ordered_start : Ordered ({} : System Content S) := by
  constructor <;> intros <;> first | exact List.Pairwise.nil | contradiction

theorem Ordered.unique (h : Ordered x) {a b : PendingApply Content} (ha : a ∈ x.applies)
    (hb : b ∈ x.applies) (heq : a.payload.requestId = b.payload.requestId) : a = b := by
  by_contra hne
  have : Std.Symm fun a b : PendingApply Content => a.payload.requestId ≠ b.payload.requestId :=
    ⟨fun _ _ => Ne.symm⟩
  exact List.Pairwise.forall (h.applies.imp fun hgt => (Nat.ne_of_lt hgt).symm) ha hb hne heq

theorem applyOf_eq_some {requestId : ℕ} {a : PendingApply Content}
    (h : x.applyOf requestId = some a) :
    a ∈ x.applies ∧ a.payload.requestId = requestId :=
  ⟨List.mem_of_find?_eq_some h, by simpa using List.find?_some h⟩

/-! ## What leaves the numbers alone -/

/-- The channel is the same in both states. -/
structure SameChannel (x y : System Content S) : Prop where
  requestCounter : y.requestCounter = x.requestCounter
  requests : y.requests = x.requests
  responses : y.responses ⊆ x.responses
  installed : y.installed = x.installed
  accepted : y.accepted = x.accepted
  applies : y.applies.Sublist x.applies

theorem SameChannel.handled (h : SameChannel x y) {n : ℕ} (hn : Handled x n) :
    Handled y n := by
  unfold Handled
  rw [h.requestCounter, h.requests]
  exact hn

theorem SameChannel.ordered (h : SameChannel x y) (ho : Ordered x)
    (hack : ∀ t n, y.acknowledged.get? t = some n → Handled x n) : Ordered y := by
  have hmem : ∀ a ∈ y.applies, a ∈ x.applies := fun a ha => h.applies.subset ha
  refine ⟨?_, ?_, ?_, fun r hr => h.handled (ho.responses r (h.responses hr)), ?_, ?_,
    fun t n hn => h.handled (hack t n hn), ho.applies.sublist h.applies, ?_, ?_, ?_⟩
  · rw [h.requests]
    exact ho.requests
  · rw [h.requests, h.requestCounter]
    exact ho.sent
  · rw [h.requests]
    exact ho.payload
  · intro t p hp
    rw [h.installed] at hp
    exact ⟨(ho.installed t p hp).1, h.handled (ho.installed t p hp).2⟩
  · intro p hp
    rw [h.accepted] at hp
    exact h.handled (ho.accepted p hp)
  · intro a ha
    rw [h.requestCounter]
    exact ho.applied a (hmem a ha)
  · intro q hq a ha heq
    rw [h.requests] at hq
    exact ho.matching q hq a (hmem a ha) heq
  · intro r hr a ha heq
    have hv := ho.verdict r (h.responses hr) a (hmem a ha) heq
    unfold Truthful at hv ⊢
    rw [h.accepted]
    exact hv

theorem SameChannel.of_eq (hc : y.requestCounter = x.requestCounter)
    (hq : y.requests = x.requests) (hr : y.responses = x.responses)
    (hi : y.installed = x.installed) (ha : y.accepted = x.accepted)
    (hp : y.applies = x.applies) : SameChannel x y :=
  ⟨hc, hq, hr ▸ List.Subset.refl _, hi, ha, hp ▸ List.Sublist.refl _⟩

theorem Ordered.of_eq (h : Ordered x) (hc : y.requestCounter = x.requestCounter)
    (hq : y.requests = x.requests) (hr : y.responses = x.responses)
    (hi : y.installed = x.installed) (ha : y.accepted = x.accepted)
    (hp : y.applies = x.applies) (hack : y.acknowledged = x.acknowledged) :
    Ordered y :=
  (SameChannel.of_eq hc hq hr hi ha hp).ordered h (hack ▸ h.acknowledged)

theorem SameChannel.trans {sys'' : System Content S} (h : SameChannel x y)
    (h' : SameChannel y sys'') : SameChannel x sys'' :=
  ⟨h'.requestCounter.trans h.requestCounter, h'.requests.trans h.requests,
    List.Subset.trans h'.responses h.responses, h'.installed.trans h.installed,
    h'.accepted.trans h.accepted, h'.applies.trans h.applies⟩

theorem sameChannel_finish (x : System Content S) (a : PendingApply Content) :
    SameChannel x (x.finish a) :=
  ⟨rfl, rfl, List.Subset.refl _, rfl, rfl, List.filter_sublist⟩

theorem sameChannel_discardStaged (x : System Content S) (a : PendingApply Content) :
    SameChannel x (x.discardStaged a) := .of_eq rfl rfl rfl rfl rfl rfl

theorem sameChannel_defer (x : System Content S) (hardwareId : String) (request : ℕ) :
    SameChannel x (x.deferMappingUntilRegrab hardwareId request) := by
  unfold System.deferMappingUntilRegrab
  split
  · exact .of_eq rfl rfl rfl rfl rfl rfl
  · exact .of_eq rfl rfl rfl rfl rfl rfl

theorem sameChannel_grabDevice (x : System Content S) (hardwareId : String) (grabbed : Bool) :
    SameChannel x (x.grabDevice hardwareId grabbed) := by
  cases grabbed <;> exact .of_eq rfl rfl rfl rfl rfl rfl

theorem sameChannel_commit (x : System Content S) (a : PendingApply Content) :
    SameChannel x (x.commit ser a) := by
  unfold System.commit
  split
  · unfold System.storeSignature
    cases a.payload.target <;> exact .of_eq rfl rfl rfl rfl rfl rfl
  · exact .of_eq rfl rfl rfl rfl rfl rfl

theorem sameChannel_settle (x : System Content S) (a : PendingApply Content) (verdict : Verdict) :
    SameChannel x (x.settle ser a verdict) := by
  unfold System.settle
  split
  · exact (sameChannel_discardStaged x a).trans (sameChannel_finish _ a)
  · rename_i hardwareId _
    exact (sameChannel_defer x hardwareId a.deviceRequest).trans
      ((sameChannel_discardStaged _ a).trans (sameChannel_finish _ a))
  · exact (sameChannel_commit x a).trans (sameChannel_finish _ a)

theorem sameChannel_settleRelease (x : System Content S) (release : Release)
    (verdict : Verdict) : SameChannel x (x.settleRelease release verdict) := by
  simp only [System.settleRelease]
  split <;> exact .of_eq rfl rfl rfl rfl rfl rfl

theorem sameChannel_settleCollection (x : System Content S) (collection : Collection)
    (verdict : Verdict) : SameChannel x (x.settleCollection collection verdict) := by
  cases verdict <;> exact .of_eq rfl rfl rfl rfl rfl rfl

/-! ## What an answer acknowledges -/

theorem commit_acknowledged (x : System Content S) (a : PendingApply Content) :
    (x.commit ser a).acknowledged =
      if x.isCurrent a then x.acknowledged.insert a.payload.target a.payload.requestId
      else x.acknowledged := by
  unfold System.commit
  split
  · unfold System.storeSignature
    cases a.payload.target <;> rfl
  · rfl

theorem settle_acknowledged (x : System Content S) (a : PendingApply Content) (verdict : Verdict)
    {t : Owner} {n : ℕ} (h : (x.settle ser a verdict).acknowledged.get? t = some n) :
    n = a.payload.requestId ∨ x.acknowledged.get? t = some n := by
  unfold System.settle at h
  split at h
  · exact Or.inr h
  · right
    unfold System.deferMappingUntilRegrab at h
    split at h <;> exact h
  · have h : (x.commit ser a).acknowledged.get? t = some n := h
    rw [commit_acknowledged] at h
    split at h
    · rw [Dict.get?_insert] at h
      split at h
      · exact Or.inl (Option.some.inj h).symm
      · exact Or.inr h
    · exact Or.inr h

/-! ## Every step keeps the numbers in order -/

theorem Ordered.send (h : Ordered x) {command : Command Content}
    (hcommand : ∀ p, command = .set p → p.requestId = x.requestCounter + 1) :
    Ordered (x.send command) := by
  have hnew : ∀ q ∈ (x.send command).requests,
      q ∈ x.requests ∨ q = ⟨x.requestCounter + 1, command⟩ := by
    intro q hq
    rcases List.mem_append.mp hq with hq | hq
    · exact Or.inl hq
    · exact Or.inr (List.mem_singleton.mp hq)
  have hhandled : ∀ n, Handled x n → Handled (x.send command) n := by
    intro n hn
    refine ⟨Nat.le_succ_of_le hn.1, fun q hq => ?_⟩
    rcases hnew q hq with hq | rfl
    · exact hn.2 q hq
    · exact Nat.lt_succ_of_le hn.1
  refine ⟨?_, ?_, ?_, fun r hr => hhandled _ (h.responses r hr),
    fun t p hp => ⟨(h.installed t p hp).1, hhandled _ (h.installed t p hp).2⟩,
    fun p hp => hhandled _ (h.accepted p hp), fun t n hn => hhandled n (h.acknowledged t n hn),
    h.applies, fun a ha => Nat.le_succ_of_le (h.applied a ha), ?_, h.verdict⟩
  · refine List.pairwise_append.mpr ⟨h.requests, List.pairwise_singleton _ _, fun q hq q' hq' => ?_⟩
    rw [List.mem_singleton.mp hq']
    exact Nat.lt_succ_of_le (h.sent q hq)
  · intro q hq
    rcases hnew q hq with hq | rfl
    · exact Nat.le_succ_of_le (h.sent q hq)
    · exact Nat.le_refl _
  · intro q hq p hp
    rcases hnew q hq with hq | rfl
    · exact h.payload q hq p hp
    · exact hcommand p hp
  · intro q hq a ha heq
    rcases hnew q hq with hq | rfl
    · exact h.matching q hq a ha heq
    · have hle := h.applied a ha
      have heq : a.payload.requestId = x.requestCounter + 1 := heq
      omega

theorem Ordered.apply (h : Ordered x) (target : Owner) (content : Content) :
    Ordered (x.apply ser target content) := by
  generalize hstage : x.execState.stage target (ser.commands content) = stage
  obtain ⟨staged, refs, execState⟩ := stage
  simp only [System.apply, hstage]
  generalize hpayload : (⟨x.requestCounter + 1, target, content, refs⟩ : Payload Content) = payload
  have hid : payload.requestId = x.requestCounter + 1 := by rw [← hpayload]
  have hbefore : Ordered { x with
      execState := execState.expose staged
      deviceRequestSequence := x.nextDeviceRequest target } :=
    ⟨h.requests, h.sent, h.payload, h.responses, h.installed, h.accepted, h.acknowledged,
      h.applies, h.applied, h.matching, h.verdict⟩
  have hcommand : ∀ p, Command.set payload = .set p → p.requestId = x.requestCounter + 1 :=
    fun p hp => by cases hp; exact hid
  have hsent := hbefore.send hcommand
  refine ⟨hsent.requests, hsent.sent, hsent.payload, hsent.responses, hsent.installed,
    hsent.accepted, hsent.acknowledged, List.pairwise_cons.mpr ⟨fun a ha => ?_, h.applies⟩,
    fun a ha => ?_, fun q hq a ha heq => ?_, fun r hr a ha heq => ?_⟩
  · have hle := h.applied a ha
    show a.payload.requestId < payload.requestId
    omega
  · rcases List.mem_cons.mp ha with rfl | ha
    · exact Nat.le_of_eq hid
    · exact Nat.le_succ_of_le (h.applied a ha)
  · rcases List.mem_cons.mp ha with rfl | ha
    · rcases List.mem_append.mp hq with hq | hq
      · have hle := h.sent q hq
        have heq : payload.requestId = q.requestId := heq
        omega
      · rw [List.mem_singleton.mp hq]
    · exact hsent.matching q hq a ha heq
  · rcases List.mem_cons.mp ha with rfl | ha
    · have hle := (h.responses r hr).1
      have heq : payload.requestId = r.requestId := heq
      omega
    · exact h.verdict r hr a ha heq

theorem Ordered.tryApply (h : Ordered x) (target : Owner) (content : Content) (sent : Bool) :
    Ordered (x.tryApply ser target content sent) := by
  cases sent with
  | true => exact h.apply target content
  | false => exact h.of_eq rfl rfl rfl rfl rfl rfl rfl

/-- The first command is handled: nothing under way is older than it. -/
theorem Ordered.next {q : Request Content} {rest : List (Request Content)} (h : Ordered x)
    (hq : x.requests = q :: rest) :
    Ordered { x with requests := rest } ∧ Handled { x with requests := rest } q.requestId ∧
      (∀ n, Handled x n → n < q.requestId) := by
  have hsub : ∀ q' ∈ rest, q' ∈ x.requests := fun q' hq' => hq ▸ List.mem_cons_of_mem q hq'
  have hhandled : ∀ n, Handled x n → Handled { x with requests := rest } n :=
    fun n hn => ⟨hn.1, fun q' hq' => hn.2 q' (hsub q' hq')⟩
  have hpair := h.requests
  rw [hq, List.pairwise_cons] at hpair
  have hmem : q ∈ x.requests := hq ▸ List.mem_cons_self
  exact ⟨⟨hpair.2, fun q' hq' => h.sent q' (hsub q' hq'), fun q' hq' => h.payload q' (hsub q' hq'),
      fun r hr => hhandled _ (h.responses r hr),
      fun t p hp => ⟨(h.installed t p hp).1, hhandled _ (h.installed t p hp).2⟩,
      fun p hp => hhandled _ (h.accepted p hp),
      fun t n hn => hhandled n (h.acknowledged t n hn), h.applies, h.applied,
      fun q' hq' => h.matching q' (hsub q' hq'), h.verdict⟩,
    ⟨h.sent q hmem, hpair.1⟩, fun n hn => hn.2 q hmem⟩

theorem Ordered.install (h : Ordered x) {payload : Payload Content}
    (hp : Handled x payload.requestId) : Ordered (x.install payload) := by
  refine ⟨h.requests, h.sent, h.payload, h.responses, fun t p hget => ?_, h.accepted,
    h.acknowledged, h.applies, h.applied, h.matching, h.verdict⟩
  have hget : (x.installed.insert payload.target payload).get? t = some p := hget
  rw [Dict.get?_insert] at hget
  split at hget
  · cases hget
    exact ⟨Eq.symm (by assumption), hp⟩
  · exact h.installed t p hget

theorem Ordered.uninstall (h : Ordered x) (hardwareId : String) :
    Ordered (x.uninstall hardwareId) := by
  refine ⟨h.requests, h.sent, h.payload, h.responses, fun t p hget => ?_, h.accepted,
    h.acknowledged, h.applies, h.applied, h.matching, h.verdict⟩
  have hget : (x.installed.erase (.device hardwareId)).get? t = some p := hget
  rw [Dict.get?_erase] at hget
  split at hget
  · cases hget
  · exact h.installed t p hget

theorem Ordered.report (h : Ordered x) (refs : List ℕ) : Ordered (x.report refs) :=
  h.of_eq rfl rfl rfl rfl rfl rfl rfl

theorem Ordered.accept (h : Ordered x) {payload : Payload Content}
    (hp : Handled x payload.requestId)
    (hnew : ∀ r ∈ x.responses, r.requestId < payload.requestId) :
    Ordered (x.accept payload) := by
  refine ⟨h.requests, h.sent, h.payload, h.responses, h.installed,
    List.forall_mem_cons.mpr ⟨hp, h.accepted⟩, h.acknowledged, h.applies, h.applied, h.matching,
    fun r hr a ha heq => ?_⟩
  have hv := h.verdict r hr a ha heq
  have hne : a.payload ≠ payload := by
    intro hsame
    have hlt := hnew r hr
    rw [← hsame] at hlt
    omega
  have hkeep : a.payload ∉ x.accepted → a.payload ∉ (x.accept payload).accepted := by
    intro hnot hmem
    rcases List.mem_cons.mp hmem with hsame | hmem
    · exact hne hsame
    · exact hnot hmem
  cases hverdict : r.verdict with
  | ok => trivial
  | waiting =>
    rw [hverdict] at hv
    exact ⟨hv.1, hkeep hv.2⟩
  | error =>
    rw [hverdict] at hv
    exact hkeep hv
  | unused refs =>
    rw [hverdict] at hv
    exact hv

theorem mem_answer {request : Request Content} {verdict : Verdict} {answers : Bool}
    {r : Response} (h : r ∈ (x.answer request verdict answers).responses) :
    r ∈ x.responses ∨ r = ⟨request.requestId, verdict⟩ := by
  cases answers with
  | false => exact Or.inl h
  | true =>
    rcases List.mem_append.mp h with h | h
    · exact Or.inl h
    · exact Or.inr (List.mem_singleton.mp h)

theorem Ordered.answer (h : Ordered x) {request : Request Content} {verdict : Verdict}
    (answers : Bool) (hr : Handled x request.requestId)
    (hv : ∀ a ∈ x.applies, a.payload.requestId = request.requestId →
      Truthful x a.payload verdict) :
    Ordered (x.answer request verdict answers) := by
  refine ⟨h.requests, h.sent, h.payload, fun r hmem' => ?_, h.installed, h.accepted,
    h.acknowledged, h.applies, h.applied, h.matching, fun r hmem' a ha heq => ?_⟩
  · rcases mem_answer hmem' with hmem' | rfl
    · exact h.responses r hmem'
    · exact hr
  · rcases mem_answer hmem' with hmem' | rfl
    · exact h.verdict r hmem' a ha heq
    · exact hv a ha heq

theorem Ordered.perform {outcome : Outcome} {answers : Bool} (h : Ordered x)
    (hstep : x.handleCommand outcome answers = some y) : Ordered y := by
  unfold System.handleCommand at hstep
  split at hstep
  · cases hstep
  · rename_i q rest hq
    obtain ⟨hnext, hhandled, hlt⟩ := h.next hq
    have hmem : q ∈ x.requests := hq ▸ List.mem_cons_self
    have hmatch : ∀ a ∈ x.applies, a.payload.requestId = q.requestId → q.command = .set a.payload :=
      h.matching q hmem
    have hnot : ∀ a ∈ x.applies, a.payload.requestId = q.requestId →
        a.payload ∉ x.accepted := by
      intro a ha heq hacc
      have hold := hlt _ (h.accepted a.payload hacc)
      omega
    unfold System.perform at hstep
    split at hstep
    · rename_i payload hcommand
      cases hstep
      have hid := h.payload q hmem payload hcommand
      rw [← hid] at hhandled hlt
      refine Ordered.answer ((hnext.install hhandled).accept hhandled ?_) answers ?_ ?_
      · exact fun r hr => hlt _ (h.responses r hr)
      · rw [← hid]
        exact hhandled
      · exact fun a ha heq => trivial
    · rename_i payload hcommand
      split at hstep
      · cases hstep
      · rename_i htarget
        cases hstep
        refine hnext.answer answers hhandled fun a ha heq => ?_
        have hset := hmatch a ha heq
        rw [hcommand] at hset
        cases hset
        exact ⟨htarget, hnot a ha heq⟩
    · rename_i payload done hcommand
      cases hstep
      have hid := h.payload q hmem payload hcommand
      cases done with
      | false => exact hnext.answer answers hhandled hnot
      | true => exact (hnext.install (hid ▸ hhandled)).answer answers hhandled hnot
    · rename_i hardwareId hcommand
      cases hstep
      exact (hnext.uninstall hardwareId).answer answers hhandled fun a ha heq => trivial
    · rename_i hardwareId done hcommand
      cases hstep
      cases done with
      | false => exact hnext.answer answers hhandled hnot
      | true => exact (hnext.uninstall hardwareId).answer answers hhandled hnot
    · rename_i refs reported hcommand
      cases hstep
      refine (hnext.report reported).answer answers hhandled fun a ha heq => ?_
      have hset := hmatch a ha heq
      rw [hcommand] at hset
      cases hset
    · rename_i refs done hcommand
      cases hstep
      exact hnext.answer answers hhandled hnot
    · cases hstep

theorem Ordered.settle (h : Ordered x) {a : PendingApply Content} (verdict : Verdict)
    (hhandled : Handled x a.payload.requestId) : Ordered (x.settle ser a verdict) := by
  refine (sameChannel_settle x a verdict).ordered h fun t n hn => ?_
  rcases settle_acknowledged x a verdict hn with rfl | hn
  · exact hhandled
  · exact h.acknowledged t n hn

theorem Ordered.answered {response : Response} (h : Ordered x)
    (hstep : x.answered ser response = some y) : Ordered y := by
  unfold System.answered at hstep
  split at hstep
  · rename_i hr
    have hresponses : SameChannel x { x with responses := x.responses.erase response } :=
      ⟨rfl, rfl, fun r hr => List.mem_of_mem_erase hr, rfl, rfl, List.Sublist.refl _⟩
    have htaken := hresponses.ordered h h.acknowledged
    simp only [Option.some.injEq] at hstep
    rw [← hstep]
    split
    · rename_i a ha
      refine htaken.settle response.verdict ?_
      rw [(applyOf_eq_some ha).2]
      exact hresponses.handled (h.responses response hr)
    · split
      · rename_i release _
        refine (sameChannel_settleRelease _ release _).ordered htaken fun t n hn => ?_
        unfold System.settleRelease at hn
        dsimp only at hn
        split at hn <;> exact htaken.acknowledged t n hn
      · split
        · rename_i collection _
          refine (sameChannel_settleCollection _ collection _).ordered htaken fun t n hn => ?_
          cases hv : response.verdict <;> rw [hv] at hn <;> exact htaken.acknowledged t n hn
        · exact htaken
  · cases hstep

theorem Ordered.disconnect (h : Ordered x) : Ordered x.disconnect := by
  refine ⟨List.Pairwise.nil, ?_, ?_, ?_, ?_, ?_, fun t n hn => ?_, List.Pairwise.nil, ?_, ?_, ?_⟩
  · exact fun q hq => absurd hq List.not_mem_nil
  · exact fun q hq => absurd hq List.not_mem_nil
  · exact fun r hr => absurd hr List.not_mem_nil
  · exact fun t p hp => absurd hp (by simp [System.disconnect])
  · exact fun p hp => absurd hp List.not_mem_nil
  · exact ⟨(h.acknowledged t n hn).1, fun q hq => absurd hq List.not_mem_nil⟩
  · exact fun a ha => absurd ha List.not_mem_nil
  · exact fun q hq => absurd hq List.not_mem_nil
  · exact fun r hr => absurd hr List.not_mem_nil

theorem Ordered.timedOut {requestId : ℕ} (h : Ordered x)
    (hstep : x.timedOut requestId = some y) : Ordered y := by
  unfold System.timedOut at hstep
  split at hstep
  · rename_i a ha
    cases hstep
    unfold System.applyTimeout
    split
    · exact h.disconnect
    · exact (sameChannel_finish (x.discardStaged a) a).ordered
        (h.of_eq rfl rfl rfl rfl rfl rfl rfl) h.acknowledged
  · split at hstep
    · cases hstep
      exact h.of_eq rfl rfl rfl rfl rfl rfl rfl
    · obtain ⟨collection, -, heq⟩ := Option.map_eq_some_iff.mp hstep
      rw [← heq]
      exact h.of_eq rfl rfl rfl rfl rfl rfl rfl

theorem Ordered.collectRetired (h : Ordered x) : Ordered x.collectRetired := by
  simp only [System.collectRetired]
  split
  · exact h
  · apply Ordered.send
    · exact h.of_eq rfl rfl rfl rfl rfl rfl rfl
    · intro p hp
      cases hp

theorem Ordered.deactivateProfile (h : Ordered x) (hardwareId : String) :
    Ordered (x.deactivateProfile hardwareId) := by
  unfold System.deactivateProfile
  split
  · exact h
  · apply Ordered.send
    · exact h.of_eq rfl rfl rfl rfl rfl rfl rfl
    · intro p hp
      cases hp

/- An operation that sends a payload unless there is no need. -/
inductive Updates (content : Content) (sent : Bool) : Op Content → Prop
  | combos : Updates content sent (.updateCombos content sent)
  | mapping (hardwareId : String) : Updates content sent (.updateMapping hardwareId content sent)
  | grabbed (hardwareId : String) : Updates content sent (.setMapping hardwareId content sent)

theorem step_update [DecidableEq S] {op : Op Content} {content : Content} {sent : Bool}
    (hop : Updates content sent op) (hstep : Apply.step ser x op = some y) :
    y = x ∨ x.idle = true ∧ ∃ target, y = x.tryApply ser target content sent := by
  cases hop with
  | combos
  | mapping hardwareId
  | grabbed hardwareId =>
    obtain ⟨hidle, rfl⟩ := enabled_eq_some.mp hstep
    exact (ite_eq_or_eq _ _ _).imp id fun heq => ⟨hidle, _, heq⟩

theorem Ordered.step [DecidableEq S] {op : Op Content} (h : Ordered x)
    (hstep : Apply.step ser x op = some y) : Ordered y := by
  cases op with
  | begin
  | invalidate target =>
    cases hstep
    exact h.of_eq rfl rfl rfl rfl rfl rfl rfl
  | updateCombos content sent
  | updateMapping hardwareId content sent
  | setMapping hardwareId content sent =>
    obtain rfl | ⟨-, target, rfl⟩ := step_update (by constructor) hstep
    · exact h
    · exact h.tryApply target content sent
  | grabDevice hardwareId grabbed =>
    obtain ⟨-, rfl⟩ := enabled_eq_some.mp hstep
    refine (sameChannel_grabDevice x hardwareId grabbed).ordered h fun t n hn => ?_
    cases grabbed <;> exact h.acknowledged t n hn
  | deactivateProfile hardwareId =>
    obtain ⟨-, rfl⟩ := enabled_eq_some.mp hstep
    exact h.deactivateProfile hardwareId
  | answered response => exact h.answered hstep
  | timedOut requestId => exact h.timedOut hstep
  | disconnected =>
    cases hstep
    exact h.disconnect
  | collectRetired =>
    obtain ⟨-, rfl⟩ := enabled_eq_some.mp hstep
    exact h.collectRetired
  | command outcome answers => exact h.perform hstep

end Keymasq.Session.Channel
