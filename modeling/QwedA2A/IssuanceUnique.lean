/-
Reservations of a trace and the tokens minted for it: what keeps two live tokens
from sharing a jti, and when a failed call breaks it.
-/
import QwedA2A.Issuance

namespace QwedA2A

open EventRun

variable {Token R : Type}

/-- The reservation a call made, and the end of its slot. -/
def SignPhase.slot : SignPhase Token → Option (Prepared × PyNum)
  | .reserved prepared slotEnd => some (prepared, slotEnd)
  | .returned prepared slotEnd _ _ => some (prepared, slotEnd)
  | _ => none

/-- A token that was returned: its jti and expiry, and since when it exists. -/
structure MintedToken where
  jti : PyStr
  exp : ℤ
  mintedAt : ℚ
deriving DecidableEq

def SignPhase.minted : SignPhase Token → Option MintedToken
  | .returned prepared _ _ mintedAt =>
      some ⟨prepared.request.traceId, prepared.exp, mintedAt⟩
  | _ => none

/-- The slot of the trace is the one the call reserved. -/
def SignState.Holds (state : SignState Token) (call : ℕ) (traceId : PyStr) :
    Prop :=
  ∃ prepared slotEnd, (state.phase call).slot = some (prepared, slotEnd) ∧
    prepared.request.traceId = traceId ∧
      state.issued.held traceId = some slotEnd

/-- At no time two unexpired tokens share a jti. -/
def NoTwins (state : SignState Token) : Prop :=
  ∀ call other token token', call ≠ other →
    (state.phase call).minted = some token →
      (state.phase other).minted = some token' → token.jti = token'.jti →
        ∀ time, token.mintedAt ≤ time → token'.mintedAt ≤ time →
          ¬ (time < token.exp ∧ time < token'.exp)

/-- No reading used before an encode ends is later than its end. -/
def Elapsed (past : List (SignEvent Token)) : SignEvent Token → Prop
  | .finish _ _ now => ∀ reading ∈ past.flatMap SignEvent.reads, reading ≤ now
  | _ => True

/-- A failed encode finds its trace not reserved by another call. -/
def ReleasesOwn (lib : CryptoLib Token) (env : Env)
    (service : A2ACryptoService R) (past : List (SignEvent Token)) :
    SignEvent Token → Prop
  | .finish call (.error _) _ =>
      ∀ prepared slotEnd, (signRun lib env service past).phase call =
        .reserved prepared slotEnd → ∀ other, other ≠ call →
          ¬ (signRun lib env service past).Holds other prepared.request.traceId
  | _ => True

/-- A failed encode leaves every other call's reservation intact. -/
def LeavesOthers (lib : CryptoLib Token) (env : Env)
    (service : A2ACryptoService R) (past : List (SignEvent Token)) :
    SignEvent Token → Prop
  | .finish call (.error exc) now =>
      ∀ other traceId, other ≠ call →
        (signRun lib env service past).Holds other traceId →
          (signRun lib env service (past ++ [.finish call (.error exc) now])).Holds
            other traceId
  | _ => True

/-- Times from which a call's phase may be looked at: the minting of a returned
token, and the latest reading for a call under way. -/
def SignPhase.Seen (readings : List ℚ) (time : ℚ) : SignPhase Token → Prop
  | .returned _ _ _ mintedAt => mintedAt ≤ time
  | _ => ∀ reading ∈ readings, reading ≤ time

/-- A slot whose end some reading has reached. -/
def Lapsed (readings : List ℚ) (slotEnd : PyNum) : Prop :=
  ∃ reading ∈ readings, slotEnd ≤ PyNum.rat reading

/-- The invariant of the issuance record: a reservation is held until it lapses,
it outlives its token, and of two reservations of one trace one has lapsed. -/
structure Exclusive (readings : List ℚ) (state : SignState Token) : Prop where
  outlives : ∀ call prepared slotEnd,
    (state.phase call).slot = some (prepared, slotEnd) →
      ∀ time : ℚ, slotEnd ≤ PyNum.rat time → (prepared.exp : ℚ) ≤ time
  held : ∀ call prepared slotEnd,
    (state.phase call).slot = some (prepared, slotEnd) →
      state.issued.held prepared.request.traceId = some slotEnd ∨
        Lapsed readings slotEnd
  twins : ∀ call other prepared slotEnd prepared' slotEnd', call ≠ other →
    (state.phase call).slot = some (prepared, slotEnd) →
      (state.phase other).slot = some (prepared', slotEnd') →
        prepared.request.traceId = prepared'.request.traceId →
          ∀ time, (state.phase call).Seen readings time →
            (state.phase other).Seen readings time →
              slotEnd ≤ PyNum.rat time ∨ slotEnd' ≤ PyNum.rat time

theorem SignPhase.Seen.of_append {readings more : List ℚ} {time : ℚ}
    {phase : SignPhase Token} (h : phase.Seen (readings ++ more) time) :
    phase.Seen readings time := by
  cases phase with
  | returned prepared slotEnd token mintedAt => exact h
  | idle => exact fun reading hmem => h reading (List.mem_append_left _ hmem)
  | ready prepared => exact fun reading hmem => h reading (List.mem_append_left _ hmem)
  | reserved prepared slotEnd =>
      exact fun reading hmem => h reading (List.mem_append_left _ hmem)
  | raised exc => exact fun reading hmem => h reading (List.mem_append_left _ hmem)

theorem Lapsed.append {readings : List ℚ} {slotEnd : PyNum}
    (h : Lapsed readings slotEnd) (more : List ℚ) :
    Lapsed (readings ++ more) slotEnd := by
  obtain ⟨reading, hmem, hle⟩ := h
  exact ⟨reading, List.mem_append_left _ hmem, hle⟩

theorem Exclusive.append {readings : List ℚ} {state : SignState Token}
    (h : Exclusive readings state) (more : List ℚ) :
    Exclusive (readings ++ more) state where
  outlives := h.outlives
  held call prepared slotEnd hslot :=
    (h.held call prepared slotEnd hslot).imp_right fun hlapsed =>
      hlapsed.append more
  twins call other prepared slotEnd prepared' slotEnd' hne hslot hslot' htrace time
      hseen hseen' :=
    h.twins call other prepared slotEnd prepared' slotEnd' hne hslot hslot' htrace
      time hseen.of_append hseen'.of_append

/-- A registration keeps every slot that has not lapsed. -/
theorem held_reserveTrace {issued : JtiRegistry} {traceId other : PyStr}
    {exp : ℤ} {now : ℚ} {slotEnd : PyNum} {readings : List ℚ}
    (hnow : now ∈ readings) (hheld : issued.held other = some slotEnd) :
    (reserveTrace issued traceId exp now).2.held other = some slotEnd ∨
      Lapsed readings slotEnd := by
  by_cases hlive : Live slotEnd now
  · exact Or.inl (LawfulReplayRegistry.kept issued traceId now _ other slotEnd hheld
      hlive)
  · exact Or.inr ⟨now, hnow, not_not.mp hlive⟩

/-- Moving one call keeps the invariant when it holds of the call's new phase and
the record keeps the other calls' slots until they lapse. -/
theorem Exclusive.move {readings : List ℚ} {state : SignState Token}
    (h : Exclusive readings state) {call : ℕ} {phase : SignPhase Token}
    {issued : JtiRegistry}
    (houtlives : ∀ prepared slotEnd, phase.slot = some (prepared, slotEnd) →
      ∀ time : ℚ, slotEnd ≤ PyNum.rat time → (prepared.exp : ℚ) ≤ time)
    (hheld : ∀ prepared slotEnd, phase.slot = some (prepared, slotEnd) →
      issued.held prepared.request.traceId = some slotEnd ∨
        Lapsed readings slotEnd)
    (hothers : ∀ other prepared slotEnd, other ≠ call →
      (state.phase other).slot = some (prepared, slotEnd) →
        state.issued.held prepared.request.traceId = some slotEnd →
          issued.held prepared.request.traceId = some slotEnd ∨
            Lapsed readings slotEnd)
    (htwins : ∀ other prepared slotEnd prepared' slotEnd', other ≠ call →
      phase.slot = some (prepared, slotEnd) →
        (state.phase other).slot = some (prepared', slotEnd') →
          prepared.request.traceId = prepared'.request.traceId →
            ∀ time, phase.Seen readings time →
              (state.phase other).Seen readings time →
                slotEnd ≤ PyNum.rat time ∨ slotEnd' ≤ PyNum.rat time) :
    Exclusive readings (state.move call phase issued) := by
  have hsame : ∀ {other}, other ≠ call →
      (state.move call phase issued).phase other = state.phase other :=
    fun hne => SignState.move_ne state hne phase issued
  refine ⟨?_, ?_, ?_⟩
  · intro other prepared slotEnd hslot
    by_cases hcall : other = call
    · rw [hcall, SignState.move_self] at hslot
      exact houtlives prepared slotEnd hslot
    · exact h.outlives other prepared slotEnd (hsame hcall ▸ hslot)
  · intro other prepared slotEnd hslot
    by_cases hcall : other = call
    · rw [hcall, SignState.move_self] at hslot
      exact hheld prepared slotEnd hslot
    · rw [hsame hcall] at hslot
      rcases h.held other prepared slotEnd hslot with hbefore | hlapsed
      · exact hothers other prepared slotEnd hcall hslot hbefore
      · exact Or.inr hlapsed
  · intro first second prepared slotEnd prepared' slotEnd' hne hslot hslot' htrace
      time hseen hseen'
    by_cases hfirst : first = call
    · have hsecond : second ≠ call := fun heq => hne (hfirst.trans heq.symm)
      rw [hfirst, SignState.move_self] at hslot hseen
      rw [hsame hsecond] at hslot' hseen'
      exact htwins second prepared slotEnd prepared' slotEnd' hsecond hslot hslot'
        htrace time hseen hseen'
    · rw [hsame hfirst] at hslot hseen
      by_cases hsecond : second = call
      · rw [hsecond, SignState.move_self] at hslot' hseen'
        exact (htwins first prepared' slotEnd' prepared slotEnd hfirst hslot' hslot
          htrace.symm time hseen' hseen).symm
      · rw [hsame hsecond] at hslot' hseen'
        exact h.twins first second prepared slotEnd prepared' slotEnd' hne hslot
          hslot' htrace time hseen hseen'

/-- A call that ends or waits without a reservation, over a record that loses
lapsed slots only. -/
theorem Exclusive.quiet {readings : List ℚ} {state : SignState Token}
    (h : Exclusive readings state) {call : ℕ} {phase : SignPhase Token}
    {issued : JtiRegistry} (hphase : phase.slot = none)
    (hothers : ∀ other prepared slotEnd, other ≠ call →
      (state.phase other).slot = some (prepared, slotEnd) →
        state.issued.held prepared.request.traceId = some slotEnd →
          issued.held prepared.request.traceId = some slotEnd ∨
            Lapsed readings slotEnd) :
    Exclusive readings (state.move call phase issued) := by
  refine h.move ?_ ?_ hothers ?_
  · intro prepared slotEnd hslot
    rw [hphase] at hslot
    cases hslot
  · intro prepared slotEnd hslot
    rw [hphase] at hslot
    cases hslot
  · intro other prepared slotEnd prepared' slotEnd' _ hslot
    rw [hphase] at hslot
    cases hslot

/-- A reservation takes its trace over only from lapsed ones. -/
theorem Exclusive.reserve {readings : List ℚ} {state : SignState Token}
    (h : Exclusive readings state) {call : ℕ} {now : ℚ} {prepared : Prepared}
    {issued : JtiRegistry} (hnow : now ∈ readings)
    (hreserve : reserveTrace state.issued prepared.request.traceId prepared.exp
      now = (true, issued)) :
    Exclusive readings (state.move call
      (.reserved prepared (state.issued.retention now
        (some (.rat prepared.exp)))) issued) := by
  have haccept : (reserveTrace state.issued prepared.request.traceId prepared.exp
      now).1 = true := congrArg Prod.fst hreserve
  have hissued : (reserveTrace state.issued prepared.request.traceId prepared.exp
      now).2 = issued := congrArg Prod.snd hreserve
  have hcovers := JtiRegistry.retention_covers state.issued now
    (some (.rat prepared.exp))
  refine h.move ?_ ?_ ?_ ?_
  · intro found slotEnd hslot time hle
    cases hslot
    by_contra hbefore
    exact hcovers time (Or.inr ⟨_, rfl,
      PyNum.rat_lt_rat.mpr (not_le.mp hbefore)⟩) hle
  · intro found slotEnd hslot
    cases hslot
    have hslots := JtiRegistry.held_checkAndRegister state.issued
      prepared.request.traceId now (some (.rat prepared.exp))
      prepared.request.traceId
    rw [if_pos ⟨rfl, haccept⟩] at hslots
    exact Or.inl (hissued ▸ hslots)
  · intro other found slotEnd _ _ hheld
    exact hissued ▸ held_reserveTrace hnow hheld
  · intro other found slotEnd found' slotEnd' _ hslot hslot' htrace time hseen _
    cases hslot
    rcases h.held other found' slotEnd' hslot' with hheld | ⟨reading, hmem, hle⟩
    · have hlapsed := (JtiRegistry.checkAndRegister_accept_iff _ _ _ _).mp haccept
        slotEnd' (htrace ▸ hheld)
      exact Or.inr (PyNum.le_trans (not_not.mp hlapsed)
        (PyNum.rat_le_rat.mpr (hseen now hnow)))
    · exact Or.inr (PyNum.le_trans hle
        (PyNum.rat_le_rat.mpr (hseen reading hmem)))

/-- A token that is returned keeps the reservation of its call. -/
theorem Exclusive.finish {readings : List ℚ} {state : SignState Token}
    (h : Exclusive readings state) {call : ℕ} {now : ℚ} {prepared : Prepared}
    {slotEnd : PyNum} (hreserved : state.phase call = .reserved prepared slotEnd)
    (helapsed : ∀ reading ∈ readings, reading ≤ now) (token : Token) :
    Exclusive readings (state.move call (.returned prepared slotEnd token now)
      state.issued) := by
  have hslot : (state.phase call).slot = some (prepared, slotEnd) := by
    rw [hreserved]
    rfl
  refine h.move ?_ ?_ (fun _ _ _ _ _ hheld => Or.inl hheld) ?_
  · intro found foundEnd hfound
    cases hfound
    exact h.outlives call prepared slotEnd hslot
  · intro found foundEnd hfound
    cases hfound
    exact h.held call prepared slotEnd hslot
  · intro other found foundEnd found' slotEnd' hne hfound hslot' htrace time hseen
      hseen'
    cases hfound
    refine h.twins call other prepared slotEnd found' slotEnd' (Ne.symm hne) hslot
      hslot' htrace time ?_ hseen'
    rw [hreserved]
    exact fun reading hmem => (helapsed reading hmem).trans hseen

/-- A failed encode that releases its own trace takes no other reservation that has
not lapsed. -/
theorem Exclusive.release {readings : List ℚ} {state : SignState Token}
    (h : Exclusive readings state) {call : ℕ} {prepared : Prepared}
    (hown : ∀ other found slotEnd, other ≠ call →
      (state.phase other).slot = some (found, slotEnd) →
        found.request.traceId = prepared.request.traceId →
          state.issued.held prepared.request.traceId = some slotEnd →
            Lapsed readings slotEnd) (exc : PyExc) :
    Exclusive readings (state.move call (.raised exc)
      (state.issued.release prepared.request.traceId)) := by
  apply h.quiet rfl
  intro other found slotEnd hne hslot hheld
  by_cases htrace : found.request.traceId = prepared.request.traceId
  · exact Or.inr (hown other found slotEnd hne hslot htrace (htrace ▸ hheld))
  · exact Or.inl ((JtiRegistry.held_release_ne state.issued htrace).trans hheld)

/-- One step keeps the invariant, once its reading is among the readings. -/
theorem Exclusive.step {lib : CryptoLib Token} {env : Env}
    {service : A2ACryptoService R} {readings : List ℚ} {state : SignState Token}
    (h : Exclusive readings state) (event : SignEvent Token)
    (hread : ∀ reading ∈ event.reads, reading ∈ readings)
    (helapsed : ∀ call encoded now, event = .finish call encoded now →
      ∀ reading ∈ readings, reading ≤ now)
    (hown : ∀ call exc now prepared slotEnd, event = .finish call (.error exc) now →
      state.phase call = .reserved prepared slotEnd → ∀ other, other ≠ call →
        ¬ state.Holds other prepared.request.traceId) :
    Exclusive readings (signStep lib env service state event) := by
  cases event with
  | begin call request now =>
      rw [signStep]
      split
      · split
        · exact h.quiet rfl fun _ _ _ _ _ hheld => Or.inl hheld
        · exact h.quiet rfl fun _ _ _ _ _ hheld => Or.inl hheld
      · exact h
  | reserve call now =>
      have hnow : now ∈ readings := hread now (by simp [SignEvent.reads])
      rw [signStep]
      split
      next prepared hready =>
        split
        next issued hreserve => exact h.reserve hnow hreserve
        next issued hreserve =>
          apply h.quiet rfl
          intro other found slotEnd _ _ hheld
          have hissued : (reserveTrace state.issued prepared.request.traceId
              prepared.exp now).2 = issued := congrArg Prod.snd hreserve
          exact hissued ▸ held_reserveTrace hnow hheld
      · exact h
  | finish call encoded now =>
      rw [signStep]
      split
      next prepared slotEnd hreserved =>
        split
        next token => exact h.finish hreserved (helapsed call _ now rfl) token
        next exc =>
          have hnone := hown call exc now prepared slotEnd rfl hreserved
          refine h.release (fun other found foundEnd hne hslot htrace hheld => ?_) exc
          exact absurd ⟨found, foundEnd, hslot, htrace, hheld⟩ (hnone other hne)
      · exact h

/-- The invariant holds throughout every run in which failed encodes release
their own traces. -/
theorem exclusive_run {lib : CryptoLib Token} {env : Env}
    {service : A2ACryptoService R} {events : List (SignEvent Token)}
    (helapsed : Admissible Elapsed events)
    (hown : Admissible (ReleasesOwn lib env service) events) :
    Exclusive (events.flatMap SignEvent.reads) (signRun lib env service events) := by
  induction events using List.reverseRecOn with
  | nil =>
      exact ⟨fun _ _ _ h => (by cases h), fun _ _ _ h => (by cases h),
        fun _ _ _ _ _ _ _ h => by cases h⟩
  | append_singleton past event ih =>
      rw [signRun, final_snoc, List.flatMap_append]
      refine ((ih helapsed.init hown.init).append _).step event ?_ ?_ ?_
      · intro reading hmem
        exact List.mem_append_right _ (by simpa using hmem)
      · intro call encoded now hevent reading hmem
        have hpast := helapsed.last
        subst hevent
        rcases List.mem_append.mp hmem with hearlier | hnow
        · exact hpast reading hearlier
        · exact (by simpa [SignEvent.reads] using hnow : reading = now).le
      · intro call exc now prepared slotEnd hevent hreserved
        have hrelease := hown.last
        subst hevent
        exact hrelease prepared slotEnd hreserved

/-- Of two tokens with one jti, one has expired by the time both exist. -/
theorem Exclusive.noTwins {readings : List ℚ} {state : SignState Token}
    (h : Exclusive readings state) : NoTwins state := by
  have hphase : ∀ {call token}, (state.phase call).minted = some token →
      ∃ prepared slotEnd, (state.phase call).slot = some (prepared, slotEnd) ∧
        prepared.request.traceId = token.jti ∧ prepared.exp = token.exp ∧
        ∀ time, token.mintedAt ≤ time → (state.phase call).Seen readings time := by
    intro call token hminted
    cases hcall : state.phase call with
    | returned prepared slotEnd found mintedAt =>
        rw [hcall] at hminted
        cases hminted
        exact ⟨prepared, slotEnd, rfl, rfl, rfl, fun time hle => hle⟩
    | _ =>
        rw [hcall] at hminted
        cases hminted
  intro call other token token' hne hminted hminted' hjti time hle hle' ⟨hlive, hlive'⟩
  obtain ⟨prepared, slotEnd, hslot, htrace, hexp, hseen⟩ := hphase hminted
  obtain ⟨prepared', slotEnd', hslot', htrace', hexp', hseen'⟩ := hphase hminted'
  rcases h.twins call other prepared slotEnd prepared' slotEnd' hne hslot hslot'
    (htrace.trans (hjti.trans htrace'.symm)) time (hseen time hle)
    (hseen' time hle') with hended | hended
  · exact absurd (h.outlives call prepared slotEnd hslot time hended)
      (not_le.mpr (hexp ▸ hlive))
  · exact absurd (h.outlives other prepared' slotEnd' hslot' time hended)
      (not_le.mpr (hexp' ▸ hlive'))

/-- A failed encode that finds its trace not reserved again takes only its own
slot. -/
theorem leavesOthers_of_releasesOwn {lib : CryptoLib Token} {env : Env}
    {service : A2ACryptoService R} {past : List (SignEvent Token)}
    {event : SignEvent Token} (h : ReleasesOwn lib env service past event) :
    LeavesOthers lib env service past event := by
  cases event with
  | begin call request now => trivial
  | reserve call now => trivial
  | finish call encoded now =>
      cases encoded with
      | ok token => trivial
      | error exc =>
          rintro other traceId hne ⟨found, slotEnd, hslot, rfl, hheld⟩
          rw [signRun, final_snoc]
          change (signStep lib env service (signRun lib env service past)
            (.finish call (.error exc) now)).Holds other found.request.traceId
          rw [signStep]
          split
          next prepared ownEnd hreserved =>
            refine ⟨found, slotEnd, ?_, rfl, ?_⟩
            · rw [SignState.move_ne _ hne]
              exact hslot
            · have htrace : found.request.traceId ≠ prepared.request.traceId :=
                fun heq => h prepared ownEnd hreserved other hne
                  ⟨found, slotEnd, hslot, heq, heq ▸ hheld⟩
              exact (JtiRegistry.held_release_ne _ htrace).trans hheld
          next => exact ⟨found, slotEnd, hslot, rfl, hheld⟩

/-- In every run in which no encode fails after another call has reserved its
trace again, no two unexpired tokens ever share a jti, and a failed encode leaves
every other reservation intact. -/
theorem attestations_unique_while_alive (lib : CryptoLib Token) (env : Env)
    (service : A2ACryptoService R) (events : List (SignEvent Token))
    (helapsed : Admissible Elapsed events)
    (hown : Admissible (ReleasesOwn lib env service) events) :
    NoTwins (signRun lib env service events) ∧
      Admissible (LeavesOthers lib env service) events :=
  ⟨(exclusive_run helapsed hown).noTwins, fun past event rest heq =>
    leavesOthers_of_releasesOwn (hown past event rest heq)⟩

/-- A clock that never goes back has passed every reading used before. -/
theorem elapsed_of_clockMonotone {events : List (SignEvent Token)}
    (h : ClockMonotone SignEvent.reads events) : Admissible Elapsed events := by
  rintro past event rest rfl
  cases event with
  | begin call request now => trivial
  | reserve call now => trivial
  | finish call encoded now =>
      intro reading hmem
      rw [ClockMonotone, List.flatMap_append, List.pairwise_append] at h
      exact h.2.2 reading hmem now (by simp [SignEvent.reads])

def SignEvent.call : SignEvent Token → ℕ
  | .begin call _ _ => call
  | .reserve call _ => call
  | .finish call _ _ => call

theorem signStep_phase_ne (lib : CryptoLib Token) (env : Env)
    (service : A2ACryptoService R) (state : SignState Token)
    {event : SignEvent Token} {other : ℕ} (hne : other ≠ event.call) :
    (signStep lib env service state event).phase other = state.phase other := by
  cases event with
  | begin call request now =>
      rw [signStep]
      split
      · split
        · exact SignState.move_ne state hne _ _
        · exact SignState.move_ne state hne _ _
      · rfl
  | reserve call now =>
      rw [signStep]
      split
      · split
        · exact SignState.move_ne state hne _ _
        · exact SignState.move_ne state hne _ _
      · rfl
  | finish call encoded now =>
      rw [signStep]
      split
      · split
        · exact SignState.move_ne state hne _ _
        · exact SignState.move_ne state hne _ _
      · rfl

theorem signRun_idle (lib : CryptoLib Token) (env : Env)
    (service : A2ACryptoService R) {events : List (SignEvent Token)} {other : ℕ}
    (hevents : ∀ event ∈ events, other ≠ event.call) :
    (signRun lib env service events).phase other = .idle := by
  induction events using List.reverseRecOn with
  | nil => rfl
  | append_singleton past event ih =>
      rw [signRun, final_snoc, signStep_phase_ne _ _ _ _ (hevents event (by simp))]
      exact ih fun earlier hmem => hevents earlier (List.mem_append_left _ hmem)

namespace Reference

def shortSigner : A2ACryptoService JtiRegistry :=
  .withDefaultRegistry (py "did:a") 10 (some (py "key one"))

def encodeExc : PyExc := ⟨.typeError, py "Object is not JSON serializable"⟩

def encoded (issuedAt : ℤ) : SignedToken :=
  ⟨signHeader keyPair,
    signPayload env (py "did:a") 10 (signRequest (py "t")) .verified issuedAt,
    ⟨1, 1⟩⟩

/-- A call stalls until its slot has lapsed and another has taken the trace over;
then its encode fails. -/
def stalledCall : List (SignEvent SignedToken) :=
  [.begin 1 (signRequest (py "t")) 0, .reserve 1 0,
    .begin 2 (signRequest (py "t")) 10, .reserve 2 10]

def stalledFailure : List (SignEvent SignedToken) :=
  stalledCall ++ [.finish 1 (.error encodeExc) 11,
    .begin 3 (signRequest (py "t")) 11, .reserve 3 11,
    .finish 2 (.ok (encoded 10)) 12, .finish 3 (.ok (encoded 11)) 13]

def retriedFailure : List (SignEvent SignedToken) :=
  [.begin 1 (signRequest (py "t")) 0, .reserve 1 0,
    .finish 1 (.error encodeExc) 1, .begin 2 (signRequest (py "t")) 2,
    .reserve 2 2, .finish 2 (.ok (encoded 2)) 3]

end Reference

/-- The failure of a stalled call withdraws the reservation of the call that took
its trace over, and the trace is minted twice. -/
theorem attestations_twins_of_stalled_failure :
    ClockMonotone SignEvent.reads Reference.stalledFailure ∧
      ¬ NoTwins (signRun Reference.lib Reference.env Reference.shortSigner
        Reference.stalledFailure) ∧
      ¬ Admissible (LeavesOthers Reference.lib Reference.env
        Reference.shortSigner) Reference.stalledFailure := by
  refine ⟨?_, fun hunique => ?_, fun hleaves => ?_⟩
  · norm_num [ClockMonotone, Reference.stalledFailure, Reference.stalledCall,
      SignEvent.reads]
  · have hsecond : ((signRun Reference.lib Reference.env Reference.shortSigner
        Reference.stalledFailure).phase 2).minted = some ⟨py "t", 20, 12⟩ := by
      decide +kernel
    have hthird : ((signRun Reference.lib Reference.env Reference.shortSigner
        Reference.stalledFailure).phase 3).minted = some ⟨py "t", 21, 13⟩ := by
      decide +kernel
    exact hunique 2 3 _ _ (by decide) hsecond hthird rfl 13 (by norm_num)
      (by norm_num) (by norm_num)
  · have hslot : ((signRun Reference.lib Reference.env Reference.shortSigner
        Reference.stalledCall).phase 2).slot.map
          (fun slot => (slot.1.request.traceId, slot.2)) =
            some (py "t", .rat 20) := by decide +kernel
    have hbefore : (signRun Reference.lib Reference.env Reference.shortSigner
        Reference.stalledCall).issued.held (py "t") = some (.rat 20) := by
      decide +kernel
    have hafter : (signRun Reference.lib Reference.env Reference.shortSigner
        (Reference.stalledCall ++
          [.finish 1 (.error Reference.encodeExc) 11])).issued.held (py "t") =
            none := by decide +kernel
    obtain ⟨⟨prepared, slotEnd⟩, hfound, hsame⟩ := Option.map_eq_some_iff.mp hslot
    rw [Prod.mk.injEq] at hsame
    obtain ⟨htrace, rfl⟩ := hsame
    obtain ⟨_, _, _, _, hheld⟩ := hleaves Reference.stalledCall _ _ rfl 2 (py "t")
      (by decide) ⟨prepared, .rat 20, hfound, htrace, hbefore⟩
    rw [hafter] at hheld
    cases hheld

/-- A trace is free again after its call failed at once. -/
theorem attestations_unique_while_alive_retried :
    NoTwins (signRun Reference.lib Reference.env Reference.shortSigner
        Reference.retriedFailure) ∧
      Admissible (LeavesOthers Reference.lib Reference.env
        Reference.shortSigner) Reference.retriedFailure := by
  refine attestations_unique_while_alive Reference.lib Reference.env
    Reference.shortSigner Reference.retriedFailure (elapsed_of_clockMonotone ?_) ?_
  · norm_num [ClockMonotone, Reference.retriedFailure, SignEvent.reads]
  · refine ((((((Admissible.nil _).snoc trivial).snoc trivial).snoc ?_).snoc
      trivial).snoc trivial).snoc trivial
    rintro prepared slotEnd - other hne ⟨found, foundEnd, hslot, -⟩
    rw [signRun_idle _ _ _ (fun event hevent => ?_)] at hslot
    · cases hslot
    · simp only [List.nil_append, List.cons_append, List.mem_cons,
        List.not_mem_nil, or_false] at hevent
      rcases hevent with rfl | rfl
      · exact hne
      · exact hne

end QwedA2A
