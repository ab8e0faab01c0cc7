/-
The attestations of interleaved `intercept` calls.  A verdict is signed without a
break, so a failed encode finds its reservation untouched, and no two attestations
that are alive together share a trace.
-/
import QwedA2A.InterceptRun
import QwedA2A.IssuanceUnique

namespace QwedA2A

open EventRun

variable {Token Tree : Type}

def InterceptEvent.signReads : InterceptEvent → List ℚ
  | .enter _ _ _ _ clock => [clock.signedAt, clock.reservedAt]
  | .resume _ _ clock => [clock.signedAt, clock.reservedAt]
  | _ => []

theorem List.getElem?_concat_cases {α : Type*} {xs : List α} {x y : α} {i : ℕ}
    (h : (xs ++ [x])[i]? = some y) : xs[i]? = some y ∨ (i = xs.length ∧ x = y) := by
  rcases lt_or_ge i xs.length with hlt | hge
  · rw [List.getElem?_append_left hlt] at h
    exact Or.inl h
  · rw [List.getElem?_append_right hge] at h
    have hzero : i - xs.length = 0 := by
      by_contra hne
      rw [List.getElem?_eq_none (by simp; omega)] at h
      cases h
    rw [hzero] at h
    exact Or.inr ⟨by omega, Option.some.inj h⟩

@[simp] theorem SignState.move_move (state : SignState Token) (call : ℕ)
    (phase phase' : SignPhase Token) (issued issued' : JtiRegistry) :
    (state.move call phase issued).move call phase' issued' =
      state.move call phase' issued' := by
  simp [SignState.move]

theorem signRun_append {R : Type} (lib : CryptoLib Token) (env : Env)
    (service : A2ACryptoService R) (past later : List (SignEvent Token)) :
    signRun lib env service (past ++ later) =
      final (signStep lib env service) (signRun lib env service past) later :=
  final_append _ _ past later

namespace InterceptorSetup

variable (setup : InterceptorSetup Token Tree)

def encoded (request : SignRequest) (clock : VerdictClock) : Except PyExc Token :=
  (prepare setup.lib setup.env setup.crypto request clock.signedAt).bind
    (encodePrepared setup.lib setup.env setup.crypto)

def signSteps (call : ℕ) (request : SignRequest) (clock : VerdictClock) :
    List (SignEvent Token) :=
  [.begin call request clock.signedAt, .reserve call clock.reservedAt,
    .finish call (setup.encoded request clock) clock.reservedAt]

def expiry (clock : VerdictClock) : ℤ :=
  truncate clock.signedAt + setup.crypto.validitySeconds

/-- The issuance record of an interceptor is that of a signing machine, in which
the calls that ended left what they minted. -/
structure Signs (readings : List ℚ) (state : InterceptState Token)
    (sign : SignState Token) : Prop where
  issued : sign.issued = state.issued
  exclusive : Exclusive readings sign
  idle : ∀ call, state.ended.length ≤ call → sign.phase call = .idle
  read : ∀ call prepared slotEnd token mintedAt,
    sign.phase call = .returned prepared slotEnd token mintedAt →
      mintedAt ∈ readings
  minted : ∀ (call : ℕ) interception verdict token,
    state.ended[call]? = some interception → interception.result = .ok verdict →
      verdict.attestationJwt = some token →
        (sign.phase call).minted = some
          ⟨interception.entry.traceId, setup.expiry interception.clock,
            interception.clock.reservedAt⟩

end InterceptorSetup

/-- Where two calls have the same slot, it has lapsed. -/
theorem Exclusive.lapsed_of_shared {readings : List ℚ} {state : SignState Token}
    (h : Exclusive readings state) {call : ℕ} {prepared : Prepared}
    {slotEnd : PyNum} {now : ℚ}
    (hreserved : state.phase call = .reserved prepared slotEnd)
    (hheld : state.issued.held prepared.request.traceId = some slotEnd)
    (hnow : now ∈ readings) (hlatest : ∀ reading ∈ readings, reading ≤ now)
    (hread : ∀ other prepared slotEnd token mintedAt,
      state.phase other = .returned prepared slotEnd token mintedAt →
        mintedAt ∈ readings)
    {other : ℕ} {found : Prepared} {foundEnd : PyNum} (hne : other ≠ call)
    (hslot : (state.phase other).slot = some (found, foundEnd))
    (htrace : found.request.traceId = prepared.request.traceId)
    (hfound : state.issued.held prepared.request.traceId = some foundEnd) :
    Lapsed readings foundEnd := by
  have hsame : foundEnd = slotEnd := Option.some.inj (hfound.symm.trans hheld)
  subst hsame
  have hown : (state.phase call).slot = some (prepared, foundEnd) := by
    rw [hreserved]
    rfl
  have hseen : (state.phase call).Seen readings now := by
    rw [hreserved]
    exact hlatest
  have hseen' : (state.phase other).Seen readings now := by
    cases hphase : state.phase other with
    | returned _ _ _ mintedAt =>
        exact hlatest mintedAt (hread other _ _ _ mintedAt hphase)
    | _ => exact hlatest
  rcases h.twins call other prepared foundEnd found foundEnd hne.symm hown hslot
    htrace.symm now hseen hseen' with hended | hended
  · exact ⟨now, hnow, hended⟩
  · exact ⟨now, hnow, hended⟩

namespace InterceptorSetup

variable {setup : InterceptorSetup Token Tree} {readings : List ℚ}
  {state : InterceptState Token} {sign : SignState Token}

theorem Signs.append (h : setup.Signs readings state sign) (more : List ℚ) :
    setup.Signs (readings ++ more) state sign where
  issued := h.issued
  exclusive := h.exclusive.append more
  idle := h.idle
  read call prepared slotEnd token mintedAt hphase :=
    List.mem_append_left more (h.read call prepared slotEnd token mintedAt hphase)
  minted := h.minted

theorem Signs.of_same (h : setup.Signs readings state sign)
    {next : InterceptState Token} (hissued : next.issued = state.issued)
    (hended : next.ended = state.ended) : setup.Signs readings next sign where
  issued := h.issued.trans hissued.symm
  exclusive := h.exclusive
  idle := by rw [hended]; exact h.idle
  read := h.read
  minted := by rw [hended]; exact h.minted

/-- What a signing in one go leaves of the machine. -/
structure Signed (setup : InterceptorSetup Token Tree) (readings : List ℚ)
    (sign : SignState Token) (call : ℕ) (request : SignRequest)
    (clock : VerdictClock) (next : SignState Token) : Prop where
  issued : next.issued = (setup.sign sign.issued clock request).2
  exclusive : Exclusive readings next
  others : ∀ other, other ≠ call → next.phase other = sign.phase other
  read : ∀ prepared slotEnd token mintedAt,
    next.phase call = .returned prepared slotEnd token mintedAt →
      mintedAt = clock.reservedAt
  minted : ∀ token, (setup.sign sign.issued clock request).1 = .ok token →
    (next.phase call).minted =
      some ⟨request.traceId, setup.expiry clock, clock.reservedAt⟩

theorem Signed.raised {call : ℕ} {request : SignRequest} {clock : VerdictClock}
    {exc exc' : PyExc} {issued : JtiRegistry}
    (hsign : setup.sign sign.issued clock request = (.error exc', issued))
    (hexclusive : Exclusive readings (sign.move call (.raised exc) issued)) :
    setup.Signed readings sign call request clock
      (sign.move call (.raised exc) issued) where
  issued := by rw [hsign]; rfl
  exclusive := hexclusive
  others other hne := SignState.move_ne sign hne _ _
  read prepared slotEnd token mintedAt hphase := by
    rw [SignState.move_self] at hphase
    cases hphase
  minted token htoken := by
    rw [hsign] at htoken
    cases htoken

/-- The encode of a reservation just made finds it untouched. -/
theorem Signed.encode {call : ℕ} {request : SignRequest} {clock : VerdictClock}
    {prepared : Prepared} {issued : JtiRegistry}
    (hrequest : prepared.request = request)
    (hexp : prepared.exp = setup.expiry clock)
    (hreserve : reserveTrace sign.issued prepared.request.traceId prepared.exp
      clock.reservedAt = (true, issued))
    (hsign : setup.sign sign.issued clock request =
      match encodePrepared setup.lib setup.env setup.crypto prepared with
      | .error exc => (.error exc, issued.release request.traceId)
      | .ok token => (.ok token, issued))
    (hexclusive : Exclusive readings (sign.move call
      (.reserved prepared (sign.issued.retention clock.reservedAt
        (some (.rat prepared.exp)))) issued))
    (hread : ∀ other prepared slotEnd token mintedAt,
      sign.phase other = .returned prepared slotEnd token mintedAt →
        mintedAt ∈ readings)
    (hreserved : clock.reservedAt ∈ readings)
    (hlatest : ∀ reading ∈ readings, reading ≤ clock.reservedAt) :
    setup.Signed readings sign call request clock
      (signStep setup.lib setup.env setup.crypto
        (sign.move call (.reserved prepared (sign.issued.retention clock.reservedAt
          (some (.rat prepared.exp)))) issued)
        (.finish call (encodePrepared setup.lib setup.env setup.crypto prepared)
          clock.reservedAt)) := by
  cases hencode : encodePrepared setup.lib setup.env setup.crypto prepared with
  | error exc =>
      rw [hencode] at hsign
      rw [signStep_finish_raised (SignState.move_self _ _ _ _), SignState.move_move,
        hrequest]
      refine Signed.raised hsign ?_
      have hslot : issued.held prepared.request.traceId = some
          (sign.issued.retention clock.reservedAt (some (.rat prepared.exp))) := by
        have hheld := JtiRegistry.held_checkAndRegister sign.issued
          prepared.request.traceId clock.reservedAt (some (.rat prepared.exp))
          prepared.request.traceId
        rw [reserveTrace] at hreserve
        rwa [hreserve, if_pos ⟨rfl, rfl⟩] at hheld
      have hread' : ∀ other found slotEnd token mintedAt,
          (sign.move call (.reserved prepared (sign.issued.retention
            clock.reservedAt (some (.rat prepared.exp)))) issued).phase other =
              .returned found slotEnd token mintedAt → mintedAt ∈ readings := by
        intro other found slotEnd token mintedAt hphase
        by_cases hcall : other = call
        · rw [hcall, SignState.move_self] at hphase
          cases hphase
        · rw [SignState.move_ne _ hcall] at hphase
          exact hread other found slotEnd token mintedAt hphase
      have hreleased := hexclusive.release (fun other found slotEnd hne hheldBy
        htrace hfound => hexclusive.lapsed_of_shared (SignState.move_self _ _ _ _)
          hslot hreserved hlatest hread' hne hheldBy htrace hfound) exc
      rwa [SignState.move_move, hrequest] at hreleased
  | ok token =>
      rw [hencode] at hsign
      rw [signStep_finish (SignState.move_self _ _ _ _), SignState.move_move]
      have hfinished := hexclusive.finish (SignState.move_self _ _ _ _) hlatest token
      rw [SignState.move_move] at hfinished
      refine ⟨by rw [hsign]; rfl, hfinished, fun other hne =>
        SignState.move_ne sign hne _ _, ?_, ?_⟩
      · intro found slotEnd found' mintedAt hphase
        rw [SignState.move_self] at hphase
        cases hphase
        rfl
      · intro found _
        rw [SignState.move_self, SignPhase.minted, hrequest, hexp]

/-- A signing in one go keeps the machine's invariant. -/
theorem signSteps_signed {call : ℕ} (request : SignRequest) {clock : VerdictClock}
    (hexclusive : Exclusive readings sign)
    (hread : ∀ other prepared slotEnd token mintedAt,
      sign.phase other = .returned prepared slotEnd token mintedAt →
        mintedAt ∈ readings)
    (hidle : sign.phase call = .idle) (hsigned : clock.signedAt ∈ readings)
    (hreserved : clock.reservedAt ∈ readings)
    (hlatest : ∀ reading ∈ readings, reading ≤ clock.reservedAt) :
    setup.Signed readings sign call request clock
      (final (signStep setup.lib setup.env setup.crypto) sign
        (setup.signSteps call request clock)) := by
  have hsign := signVerdict_eq_prepare setup.lib setup.env
    { setup.crypto with issuedRegistry := sign.issued } request clock.signedAt
    clock.reservedAt
  change setup.sign sign.issued clock request = _ at hsign
  rw [show prepare setup.lib setup.env
    { setup.crypto with issuedRegistry := sign.issued } request clock.signedAt =
      prepare setup.lib setup.env setup.crypto request clock.signedAt from rfl]
    at hsign
  have hbegun : Exclusive readings (signStep setup.lib setup.env setup.crypto sign
      (.begin call request clock.signedAt)) :=
    hexclusive.step _ (by simpa [SignEvent.reads] using hsigned)
      (fun _ _ _ hevent => by cases hevent) fun _ _ _ _ _ hevent => by cases hevent
  simp only [signSteps, encoded, final, List.foldl_cons, List.foldl_nil]
  cases hprepared : prepare setup.lib setup.env setup.crypto request
      clock.signedAt with
  | error exc =>
      rw [hprepared] at hsign
      rw [signStep_begin_raised hidle hprepared] at hbegun ⊢
      rw [(signStep_raised (SignState.move_self _ _ _ _) _ (.error exc)).1,
        (signStep_raised (SignState.move_self _ _ _ _) clock.reservedAt _).2]
      exact Signed.raised hsign hbegun
  | ok prepared =>
      rw [hprepared] at hsign
      obtain ⟨_, _, hrequest, hissuedAt, hexp⟩ := prepare_ok hprepared
      rw [signStep_begin hidle hprepared] at hbegun ⊢
      have htaken : Exclusive readings (signStep setup.lib setup.env setup.crypto
          (sign.move call (.ready prepared) sign.issued)
          (.reserve call clock.reservedAt)) :=
        hbegun.step _ (by simpa [SignEvent.reads] using hreserved)
          (fun _ _ _ hevent => by cases hevent) fun _ _ _ _ _ hevent => by cases hevent
      rcases hreserve : reserveTrace sign.issued prepared.request.traceId
        prepared.exp clock.reservedAt with ⟨accepted, issued⟩
      simp only [hreserve] at hsign
      cases accepted with
      | false =>
          rw [signStep_reserve_duplicate (SignState.move_self _ _ _ _) hreserve,
            SignState.move_move] at htaken ⊢
          rw [(signStep_raised (SignState.move_self _ _ _ _) clock.reservedAt _).2]
          exact Signed.raised hsign htaken
      | true =>
          rw [signStep_reserve (SignState.move_self _ _ _ _) hreserve,
            SignState.move_move] at htaken ⊢
          exact Signed.encode hrequest (hexp.trans (by rw [hissuedAt]; rfl))
            hreserve hsign htaken hread hreserved hlatest

/-- A call that ends without an attestation leaves the record alone. -/
theorem Signs.quiet (h : setup.Signs readings state sign)
    {next : InterceptState Token} {interception : Interception Token}
    (hissued : next.issued = state.issued)
    (hended : next.ended = state.ended ++ [interception])
    (hbare : ∀ verdict, interception.result = .ok verdict →
      verdict.attestationJwt = none) : setup.Signs readings next sign where
  issued := h.issued.trans hissued.symm
  exclusive := h.exclusive
  idle call hcall := h.idle call (by
    rw [hended, List.length_append] at hcall
    omega)
  read := h.read
  minted call found verdict token hfound hresult htoken := by
    rw [hended] at hfound
    rcases List.getElem?_concat_cases hfound with hold | ⟨_, rfl⟩
    · exact h.minted call found verdict token hold hresult htoken
    · rw [hbare verdict hresult] at htoken
      cases htoken

/-- A call that ends after a signing leaves what the machine does. -/
theorem Signs.signed (h : setup.Signs readings state sign)
    {next : InterceptState Token} {interception : Interception Token}
    {request : SignRequest} {after : SignState Token}
    (hafter : setup.Signed readings sign state.ended.length request
      interception.clock after)
    (hreserved : interception.clock.reservedAt ∈ readings)
    (hissued : next.issued = (setup.sign state.issued interception.clock request).2)
    (hended : next.ended = state.ended ++ [interception])
    (hrequest : request.traceId = interception.entry.traceId)
    (hresult : ∀ verdict token, interception.result = .ok verdict →
      verdict.attestationJwt = some token →
        (setup.sign state.issued interception.clock request).1 = .ok token) :
    setup.Signs readings next after where
  issued := by rw [hafter.issued, hissued, h.issued]
  exclusive := hafter.exclusive
  idle call hcall := by
    rw [hended, List.length_append, List.length_singleton] at hcall
    rw [hafter.others call (by omega)]
    exact h.idle call (by omega)
  read call prepared slotEnd token mintedAt hphase := by
    by_cases hcall : call = state.ended.length
    · subst hcall
      rw [hafter.read prepared slotEnd token mintedAt hphase]
      exact hreserved
    · rw [hafter.others call hcall] at hphase
      exact h.read call prepared slotEnd token mintedAt hphase
  minted call found verdict token hfound hverdict htoken := by
    rw [hended] at hfound
    rcases List.getElem?_concat_cases hfound with hold | ⟨rfl, rfl⟩
    · have hcall : call ≠ state.ended.length := by
        rintro rfl
        rw [List.getElem?_eq_none le_rfl] at hold
        cases hold
      rw [hafter.others call hcall]
      exact h.minted call found verdict token hold hverdict htoken
    · have hsign := hresult verdict token hverdict htoken
      rw [← h.issued] at hsign
      rw [hafter.minted token hsign, hrequest]

/-- A verdict that is built signs in one go, if it signs at all. -/
theorem Signs.conclude (events : List (SignEvent Token))
    (h : setup.Signs readings state (signRun setup.lib setup.env setup.crypto events))
    (entry : Entry) (drafted : Except PyExc Draft) (pool : PoolOutcome)
    {clock : VerdictClock}
    (hsigned : clock.signedAt ∈ readings) (hreserved : clock.reservedAt ∈ readings)
    (hlatest : ∀ reading ∈ readings, reading ≤ clock.reservedAt) :
    ∃ events, setup.Signs readings (setup.conclude state entry drafted pool clock)
      (signRun setup.lib setup.env setup.crypto events) := by
  cases drafted with
  | error exc => exact ⟨events, h.quiet rfl rfl fun _ hresult => nomatch hresult⟩
  | ok draft =>
      by_cases hunverifiable : draft.status = .unverifiable
      · refine ⟨events, h.quiet ?_ rfl fun verdict hresult => ?_⟩
        · simp only [InterceptorSetup.conclude, issuedAfter, hunverifiable, if_true]
        · by_contra htoken
          obtain ⟨token, htoken⟩ := Option.ne_none_iff_exists'.mp htoken
          exact (Interceptor.buildVerdict_attested hresult htoken).1 hunverifiable
      · cases hhash : payloadHash setup.lib (.dict entry.message.payload) with
        | error exc =>
            refine ⟨events, h.quiet ?_ rfl fun verdict hresult => ?_⟩
            · simp only [InterceptorSetup.conclude, issuedAfter, hhash, ite_self]
            · by_contra htoken
              obtain ⟨token, htoken⟩ := Option.ne_none_iff_exists'.mp htoken
              obtain ⟨_, hash, hother, _⟩ :=
                Interceptor.buildVerdict_attested hresult htoken
              cases hhash.symm.trans hother
        | ok hash =>
            have hafter : setup.Signed readings _ state.ended.length _ clock _ :=
              signSteps_signed
                (Interceptor.signRequest entry.message entry.traceId draft hash)
                h.exclusive h.read (h.idle _ le_rfl) hsigned hreserved
                hlatest
            rw [← signRun_append] at hafter
            refine ⟨_, h.signed hafter hreserved ?_ rfl rfl fun verdict token hresult
              htoken => ?_⟩
            · simp only [InterceptorSetup.conclude, issuedAfter, hhash,
                if_neg hunverifiable]
            · obtain ⟨_, found, hother, hsign⟩ :=
                Interceptor.buildVerdict_attested hresult htoken
              cases hhash.symm.trans hother
              exact hsign

variable (setup)

/-- The issuance record of a run is that of a signing machine. -/
theorem signs_after (trust : TrustBoundary) (run : List InterceptEvent)
    (hclock : ClockMonotone InterceptEvent.signReads run) :
    ∃ events, setup.Signs (run.flatMap InterceptEvent.signReads)
      (setup.after trust run)
      (signRun setup.lib setup.env setup.crypto events) := by
  induction run using List.reverseRecOn with
  | nil =>
      refine ⟨[], rfl, ⟨?_, ?_, ?_⟩, fun _ _ => rfl, ?_, ?_⟩
      · exact fun _ _ _ h => nomatch h
      · exact fun _ _ _ h => nomatch h
      · exact fun _ _ _ _ _ _ _ h => nomatch h
      · exact fun _ _ _ _ _ h => nomatch h
      · exact fun _ _ _ _ h => nomatch h
  | append_singleton past event ih =>
      obtain ⟨events, hpast⟩ := ih hclock.init
      rw [List.flatMap_append, List.flatMap_singleton, after_snoc]
      have hkept := hpast.append (event.signReads)
      have hlatest : ∀ clock : VerdictClock,
          event.signReads = [clock.signedAt, clock.reservedAt] →
            ∀ reading ∈ past.flatMap InterceptEvent.signReads ++ event.signReads,
              reading ≤ clock.reservedAt := by
        intro clock hreads reading hmem
        rw [ClockMonotone, List.flatMap_append, List.flatMap_singleton,
          List.pairwise_append, hreads] at hclock
        rcases List.mem_append.mp hmem with hold | hnew
        · exact hclock.2.2 reading hold _ (by simp)
        · rw [hreads, List.mem_pair] at hnew
          rcases hnew with rfl | rfl
          · exact List.rel_of_pairwise_cons hclock.2.1 (by simp)
          · exact le_rfl
      have hstretch := setup.step_stretch (setup.after trust past) event
      generalize setup.step (setup.after trust past) event = state at hstretch
      cases hstretch with
      | still _ _ _ => exact ⟨events, hkept⟩
      | refuses verdictClock drafted tb _ _ =>
          refine Signs.conclude events ?_ _ drafted .finishes
            (List.mem_append_right _ (by simp [InterceptEvent.signReads]))
            (List.mem_append_right _ (by simp [InterceptEvent.signReads]))
            (hlatest verdictClock rfl)
          exact hkept.of_same rfl rfl
      | starts _ _ _ _ _ =>
          exact ⟨events, hkept.of_same rfl rfl⟩
      | finishes pool verdictClock _ =>
          refine Signs.conclude events ?_ _ _ pool
            (List.mem_append_right _ (by simp [InterceptEvent.signReads]))
            (List.mem_append_right _ (by simp [InterceptEvent.signReads]))
            (hlatest verdictClock rfl)
          exact hkept.of_same rfl rfl
      | drops _ =>
          exact ⟨events, hkept.of_same rfl rfl⟩
      | operates _ =>
          exact ⟨events, hkept.of_same rfl rfl⟩

end InterceptorSetup

/-- The call returned a verdict with an attestation. -/
def Interception.Attested (interception : Interception Token) : Prop :=
  ∃ verdict token, interception.result = .ok verdict ∧
    verdict.attestationJwt = some token

/-- However calls of `intercept` interleave, failing encodes included, no two of
the attestations they return are alive together under one trace. -/
theorem intercepted_attestations_distinct (setup : InterceptorSetup Token Tree)
    (trust : TrustBoundary)
    (run : List InterceptEvent)
    (hclock : ClockMonotone InterceptEvent.signReads run) (i j : ℕ) (hne : i ≠ j)
    (first second : Interception Token)
    (hfirst : (setup.after trust run).ended[i]? = some first)
    (hsecond : (setup.after trust run).ended[j]? = some second)
    (hattested : first.Attested) (hattested' : second.Attested)
    (htrace : first.entry.traceId = second.entry.traceId) (time : ℚ)
    (hstarted : first.clock.reservedAt ≤ time)
    (hstarted' : second.clock.reservedAt ≤ time) :
    ¬ (time < setup.expiry first.clock ∧ time < setup.expiry second.clock) := by
  obtain ⟨events, hsigns⟩ := setup.signs_after trust run hclock
  obtain ⟨verdict, token, hresult, htoken⟩ := hattested
  obtain ⟨verdict', token', hresult', htoken'⟩ := hattested'
  exact hsigns.exclusive.noTwins i j _ _ hne
    (hsigns.minted i first verdict token hfirst hresult htoken)
    (hsigns.minted j second verdict' token' hsecond hresult' htoken') htrace time
    hstarted hstarted'

theorem Interception.attested_of_isSome {interception : Interception Token}
    (h : (interception.result.toOption.bind fun verdict =>
      verdict.attestationJwt).isSome = true) : interception.Attested := by
  obtain ⟨token, htoken⟩ := Option.isSome_iff_exists.mp h
  obtain ⟨verdict, hverdict, hcarried⟩ := Option.bind_eq_some_iff.mp htoken
  refine ⟨verdict, token, ?_, hcarried⟩
  cases hresult : interception.result with
  | error exc =>
      rw [hresult] at hverdict
      cases hverdict
  | ok found =>
      rw [hresult] at hverdict
      exact congrArg Except.ok (Option.some.inj hverdict)

/-- The invoice under one trace, before and after its attestation expires. -/
def Reference.reissued : List InterceptEvent :=
  [invoiceCall 0 (py "t") 0, .resume 0 .finishes (verdictClock 1),
    invoiceCall 1 (py "t") 400, .resume 1 .finishes (verdictClock 401)]

/-- The trace is attested twice, and never by two live attestations. -/
theorem intercepted_attestations_distinct_reissued :
    ∃ first second, (Reference.setup.after (.fresh 60 true)
        Reference.reissued).ended = [first, second] ∧
      first.Attested ∧ second.Attested ∧
      first.entry.traceId = second.entry.traceId ∧
      ∀ time, first.clock.reservedAt ≤ time → second.clock.reservedAt ≤ time →
        ¬ (time < Reference.setup.expiry first.clock ∧
          time < Reference.setup.expiry second.clock) := by
  have hlength : (Reference.setup.after (.fresh 60 true)
      Reference.reissued).ended.length = 2 := by
    decide +kernel
  have hsome : ((Reference.setup.after (.fresh 60 true)
      Reference.reissued).ended.all fun interception =>
        (interception.result.toOption.bind fun verdict =>
          verdict.attestationJwt).isSome) = true := by
    decide +kernel
  have htraces : ((Reference.setup.after (.fresh 60 true)
      Reference.reissued).ended.all fun interception =>
        interception.entry.traceId = py "t") = true := by
    decide +kernel
  obtain ⟨first, second, hended⟩ := List.length_eq_two.mp hlength
  rw [hended] at hsome htraces
  have hfirst : first.Attested := Interception.attested_of_isSome
    (List.all_eq_true.mp hsome first (by simp))
  have hsecond : second.Attested := Interception.attested_of_isSome
    (List.all_eq_true.mp hsome second (by simp))
  have htrace : first.entry.traceId = second.entry.traceId :=
    (of_decide_eq_true (List.all_eq_true.mp htraces first (by simp))).trans
      (of_decide_eq_true (List.all_eq_true.mp htraces second (by simp))).symm
  refine ⟨first, second, hended, hfirst, hsecond, htrace, fun time hle hle' => ?_⟩
  refine intercepted_attestations_distinct Reference.setup
    (.fresh 60 true) Reference.reissued ?_ 0 1 (by decide) first second
    (by rw [hended]; rfl) (by rw [hended]; rfl) hfirst hsecond htrace time hle hle'
  rw [ClockMonotone]
  decide +kernel

end QwedA2A
