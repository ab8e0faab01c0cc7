/-
Operations that take authority away.  A block only narrows what the boundary
admits.  A revocation also drops the scopes of the grant it removes, and what
only those scopes refused passes afterwards.
-/
import QwedA2A.TrustHistory

namespace QwedA2A

open EventRun

/-- The operations that only narrow: blocks, and the requests themselves. -/
def BoundaryOp.restricts : BoundaryOp → Bool
  | .blockAgent _ => true
  | .blockPair _ _ => true
  | .evaluate _ _ _ _ => true
  | _ => false

namespace TrustBoundary

/-- At this instant the boundary admits nothing that the other refuses. -/
def NarrowerThan (now : ℚ) (tb wider : TrustBoundary) : Prop :=
  ∀ senderId receiverId payloadType,
    tb.Admitted senderId receiverId payloadType now →
      wider.Admitted senderId receiverId payloadType now

theorem NarrowerThan.refl (now : ℚ) (tb : TrustBoundary) :
    NarrowerThan now tb tb :=
  fun _ _ _ hadmitted => hadmitted

theorem NarrowerThan.trans {now : ℚ} {tb wider widest : TrustBoundary}
    (hleft : NarrowerThan now tb wider) (hright : NarrowerThan now wider widest) :
    NarrowerThan now tb widest :=
  fun senderId receiverId payloadType hadmitted =>
    hright senderId receiverId payloadType
      (hleft senderId receiverId payloadType hadmitted)

/-- A grant live now refuses the request by its own scope: the receiver's
grant, or in permissive mode the sender's. -/
def ScopedOut (tb : TrustBoundary) (agentId senderId receiverId : PyStr)
    (payloadType : Option PyStr) (now : ℚ) : Prop :=
  receiverId = agentId ∧
      receiverScopeBlocks (tb.liveEntry agentId now) senderId payloadType = true ∨
    senderId = agentId ∧ tb.defaultAllow = true ∧
      senderScopeBlocks (tb.liveEntry agentId now) receiverId payloadType = true

variable {tb : TrustBoundary} {agentId senderId receiverId : PyStr}
  {payloadType : Option PyStr} {now : ℚ}

theorem ScopedOut.not_admitted
    (h : tb.ScopedOut agentId senderId receiverId payloadType now) :
    ¬ tb.Admitted senderId receiverId payloadType now := by
  rw [admitted_iff_passes]
  intro hpass
  rcases h with ⟨rfl, hblocks⟩ | ⟨rfl, _, hblocks⟩
  · rw [hpass.receiver_scope] at hblocks
    cases hblocks
  · rw [hpass.sender_scope] at hblocks
    cases hblocks

/-- Without one agent's grant, the live entries of the others. -/
theorem liveEntry_erase_of_ne {other : PyStr} (hne : other ≠ agentId) :
    nullifyIfExpired ((tb.trustedAgents.erase agentId).lookup other) now =
      tb.liveEntry other now := by
  rw [AList.lookup_erase_ne hne, liveEntry]

/-- A blocked agent neither sends nor receives, so its lost grant opens
nothing. -/
theorem blockAgent_narrows (tb : TrustBoundary) (agentId : PyStr) (now : ℚ) :
    NarrowerThan now (tb.blockAgent agentId) tb := by
  intro senderId receiverId payloadType hadmitted
  rw [admitted_iff_passes] at hadmitted ⊢
  obtain ⟨hsender, hreceiver, hpair, hgate, hscope, hinbound⟩ := hadmitted
  simp only [blockAgent, Finset.mem_insert, not_or] at hsender hreceiver
  have hsame : (tb.blockAgent agentId).liveEntry senderId now =
      tb.liveEntry senderId now := liveEntry_erase_of_ne hsender.1
  have hsame' : (tb.blockAgent agentId).liveEntry receiverId now =
      tb.liveEntry receiverId now := liveEntry_erase_of_ne hreceiver.1
  rw [hsame] at hgate hscope
  rw [hsame'] at hinbound
  exact ⟨hsender.2, hreceiver.2, hpair, hgate, hscope, hinbound⟩

theorem blockPair_narrows (tb : TrustBoundary) (blockedSender blockedReceiver : PyStr)
    (now : ℚ) :
    NarrowerThan now (tb.blockPair blockedSender blockedReceiver) tb := by
  intro senderId receiverId payloadType hadmitted
  rw [admitted_iff_passes] at hadmitted ⊢
  obtain ⟨hsender, hreceiver, hpair, hgate, hscope, hinbound⟩ := hadmitted
  simp only [blockPair, Finset.mem_insert, not_or] at hpair
  exact ⟨hsender, hreceiver, hpair.2, hgate, hscope, hinbound⟩

/-- What passes after a revocation passed before, unless the scope of the
removed grant stood against it. -/
theorem admitted_of_revoked
    (h : (tb.revokeAgent agentId).2.Admitted senderId receiverId payloadType now) :
    tb.Admitted senderId receiverId payloadType now ∨
      tb.ScopedOut agentId senderId receiverId payloadType now := by
  rw [revokeAgent_state, admitted_iff_passes] at h
  obtain ⟨hsender, hreceiver, hpair, hgate, hscope, hinbound⟩ := h
  simp only [liveEntry] at hgate hscope hinbound
  by_cases hout : tb.ScopedOut agentId senderId receiverId payloadType now
  · exact Or.inr hout
  refine Or.inl ((admitted_iff_passes tb senderId receiverId payloadType now).mpr
    ⟨hsender, hreceiver, hpair, ?_, ?_, ?_⟩)
  · intro hmode
    have hlive := hgate hmode
    by_cases heq : senderId = agentId
    · subst heq
      simp [nullifyIfExpired] at hlive
    · rwa [liveEntry_erase_of_ne heq] at hlive
  · by_cases heq : senderId = agentId
    · subst heq
      by_contra hblocks
      apply hout
      refine Or.inr ⟨rfl, ?_, by simpa using hblocks⟩
      by_contra hmode
      have hlive := hgate (by simpa using hmode)
      simp [nullifyIfExpired] at hlive
    · rwa [liveEntry_erase_of_ne heq] at hscope
  · by_cases heq : receiverId = agentId
    · subst heq
      by_contra hblocks
      exact hout (Or.inl ⟨rfl, by simpa using hblocks⟩)
    · rwa [liveEntry_erase_of_ne heq] at hinbound

/-- Blocks never widen what the boundary admits, and a revocation widens it
only by requests that the scope of the removed grant refused. -/
theorem restrictions_never_widen (tb : TrustBoundary)
    (agentId pairSender pairReceiver senderId receiverId : PyStr)
    (payloadType : Option PyStr) (now : ℚ) :
    ((tb.blockAgent agentId).Admitted senderId receiverId payloadType now →
      tb.Admitted senderId receiverId payloadType now) ∧
    ((tb.blockPair pairSender pairReceiver).Admitted senderId receiverId
        payloadType now →
      tb.Admitted senderId receiverId payloadType now) ∧
    ((tb.revokeAgent agentId).2.Admitted senderId receiverId payloadType now →
      (¬ tb.Admitted senderId receiverId payloadType now ↔
        tb.ScopedOut agentId senderId receiverId payloadType now)) := by
  refine ⟨?_, ?_, ?_⟩
  · exact tb.blockAgent_narrows agentId now senderId receiverId payloadType
  · exact tb.blockPair_narrows pairSender pairReceiver now senderId receiverId
      payloadType
  · intro hrevoked
    constructor
    · intro hrefused
      exact (admitted_of_revoked hrevoked).resolve_left hrefused
    · exact ScopedOut.not_admitted

/-- An agent that accepts requests from one sender only is open to another
once its grant is revoked; in permissive mode a scoped sender is likewise. -/
theorem revocation_widens :
    let inbound := after 60 false
      [.trustAgent (py "a") {},
        .trustAgent (py "b") { allowedReceivers := some {py "c"} }]
    let outbound := after 60 true
      [.trustAgent (py "a") { allowedReceivers := some {py "c"} }]
    (¬ inbound.Admitted (py "a") (py "b") none 0 ∧
      (inbound.revokeAgent (py "b")).2.Admitted (py "a") (py "b") none 0) ∧
    ¬ outbound.Admitted (py "a") (py "b") none 0 ∧
      (outbound.revokeAgent (py "a")).2.Admitted (py "a") (py "b") none 0 := by
  decide +kernel

/-- A request leaves what is admitted from its instant on as it was. -/
theorem evaluate_narrows (tb : TrustBoundary) (senderId receiverId : PyStr)
    (payloadType : Option PyStr) (clock : Clock) {now : ℚ} (hle : clock.now ≤ now) :
    NarrowerThan now (tb.evaluate senderId receiverId payloadType clock).2 tb := by
  obtain ⟨hmode, hblocked, hpairs, hgrants⟩ :=
    tb.evaluate_summary senderId receiverId payloadType clock
  intro sender receiver type hadmitted
  have hlive : ∀ agentId,
      (tb.evaluate senderId receiverId payloadType clock).2.liveEntry agentId now =
        tb.liveEntry agentId now := fun agentId => hgrants agentId now hle
  rw [admitted_iff_passes] at hadmitted ⊢
  obtain ⟨hsender, hreceiver, hpair, hgate, hscope, hinbound⟩ := hadmitted
  rw [hblocked] at hsender hreceiver
  rw [hpairs] at hpair
  rw [hmode, hlive] at hgate
  rw [hlive] at hscope hinbound
  exact ⟨hsender, hreceiver, hpair, hgate, hscope, hinbound⟩

theorem step_narrows (tb : TrustBoundary) (op : BoundaryOp) {now : ℚ}
    (honly : op.restricts = true) (hle : ∀ time ∈ op.wallReads, time ≤ now) :
    NarrowerThan now (tb.step op) tb := by
  cases op with
  | blockAgent agentId => exact tb.blockAgent_narrows agentId now
  | blockPair senderId receiverId =>
      exact tb.blockPair_narrows senderId receiverId now
  | evaluate senderId receiverId payloadType clock =>
      exact tb.evaluate_narrows senderId receiverId payloadType clock
        (hle clock.now (by simp [BoundaryOp.wallReads]))
  | trustAgent agentId entry => cases honly
  | revokeAgent agentId => cases honly
  | unblockPair senderId receiverId => cases honly

/-- A run of blocks and requests only narrows what is admitted after it. -/
theorem run_narrows (tb : TrustBoundary) (ops : List BoundaryOp) {now : ℚ}
    (honly : ∀ op ∈ ops, op.restricts = true)
    (hle : ∀ time ∈ ops.flatMap BoundaryOp.wallReads, time ≤ now) :
    NarrowerThan now (final step tb ops) tb := by
  induction ops using List.reverseRecOn with
  | nil => exact NarrowerThan.refl now tb
  | append_singleton past op ih =>
      rw [final_snoc]
      rw [List.flatMap_append, List.flatMap_singleton] at hle
      have hpast : NarrowerThan now (final step tb past) tb := by
        apply ih
        · exact fun earlier hmem => honly earlier (List.mem_append_left _ hmem)
        · exact fun time hmem => hle time (List.mem_append_left _ hmem)
      have hlast := step_narrows (final step tb past) op
        (honly op (by simp)) (fun time hmem =>
          hle time (List.mem_append_right _ hmem))
      exact hlast.trans hpast

end TrustBoundary

end QwedA2A
