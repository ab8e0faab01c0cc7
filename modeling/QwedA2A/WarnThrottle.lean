/-
The misconfiguration warnings, at most one a minute.  `_warn_issuers_misconfigured`
reads its clock and then checks and writes the last warning under a lock;
`_warn_api_keys_misconfigured` does the same without one.
-/
import QwedA2A.Monitor
import QwedA2A.Throttle

namespace QwedA2A

open EventRun

/-- `_TRUSTED_ISSUERS_WARN_INTERVAL` and `_API_KEYS_WARN_INTERVAL`. -/
def warnInterval : ℚ := 60

theorem warnInterval_nonneg : 0 ≤ warnInterval := by
  rw [warnInterval]
  norm_num

/-- The body of `_warn_issuers_misconfigured` at the reading it took: it answers whether
it warned. -/
def warnIssuersBody (now : ℚ) : Monitor.Program (Option ℚ) Unit Bool :=
  .fetch fun last =>
    if Throttle.due warnInterval last now then
      .update (fun _ => some now) <| .answer true
    else .answer false

/-- A step of some thread; a call is known by its reading. -/
abbrev WarnEvent := Monitor.Event Unit ℚ

/-- Calls before the first warning, and after a run of them. -/
def warnIssuersAfter (run : List WarnEvent) : Monitor.State (Option ℚ) Unit Bool ℚ :=
  Monitor.after warnIssuersBody none run

theorem warnIssuersAfter_sound (run : List WarnEvent) :
    ∃ last, Monitor.Sound warnIssuersBody none (warnIssuersAfter run) last :=
  Monitor.sound_after warnIssuersBody none run

def warnReadings (log : List (Monitor.Entry Unit Bool ℚ)) : List ℚ :=
  Monitor.operations (fun now _ => [now]) log

theorem warnIssuersBody_implements :
    Monitor.Implements warnIssuersBody (Throttle.step warnInterval)
      (fun now (_ : List Unit) => [now])
      (fun last now _ => Throttle.due warnInterval last now) := by
  intro now last next readings warned h
  rw [warnIssuersBody, Monitor.Program.alone_fetch] at h
  simp only [final, List.foldl_cons, List.foldl_nil, Throttle.step]
  split_ifs at h ⊢ with hdue
  · rw [Monitor.Program.alone_update] at h
    obtain ⟨_, rfl, rfl⟩ := Monitor.Program.alone_answer_eq_some h
    exact ⟨hdue.symm, rfl⟩
  · obtain ⟨_, rfl, rfl⟩ := Monitor.Program.alone_answer_eq_some h
    exact ⟨(Bool.eq_false_iff.mpr hdue).symm, rfl⟩

/-- The calls that warned are those the throttle lets through. -/
theorem warned_eq_passed {log : List (Monitor.Entry Unit Bool ℚ)} {last : Option ℚ}
    (h : Monitor.Replays warnIssuersBody none log last) :
    (log.filter Monitor.Entry.result).map Monitor.Entry.method =
      Throttle.passed warnInterval (warnReadings log) := by
  induction h with
  | nil => rfl
  | @snoc log met next entry hbefore hentry ih =>
      obtain ⟨hresult, _⟩ := warnIssuersBody_implements hentry
      have hmet := warnIssuersBody_implements.replays hbefore
      rw [warnReadings, Monitor.operations_snoc, ← warnReadings, Throttle.passed_snoc,
        List.filter_append, List.map_append, ih, warnReadings, ← hmet, Throttle.lets]
      cases hdue : Throttle.due warnInterval met entry.method with
      | true => simp [hresult, hdue]
      | false => simp [hresult, hdue]

/-- A call that kept silent came less than a minute after one that had warned. -/
theorem warned_of_silent {run : List WarnEvent} {caller : ℕ} {now : ℚ}
    (h : (warnIssuersAfter run).call caller = .returned now false) :
    ∃ warner time, (warnIssuersAfter run).call warner = .returned time true ∧
      now - time < warnInterval := by
  obtain ⟨last, hsound⟩ := warnIssuersAfter_sound run
  obtain ⟨entry, hentry, rfl, rfl, hsilent⟩ := hsound.logged caller now false h
  obtain ⟨before, rest, hlog⟩ := List.append_of_mem hentry
  have hreplays := hsound.replays
  rw [hlog] at hreplays
  obtain ⟨met, next, hbefore, halone⟩ := hreplays.split
  have hheld : Throttle.due warnInterval met entry.method = false := by
    rw [← hsilent]
    exact (warnIssuersBody_implements halone).1.symm
  rw [warnIssuersBody_implements.replays hbefore] at hheld
  obtain ⟨time, htime, hrecent⟩ := Throttle.exists_passed_of_not_due hheld
  change time ∈ Throttle.passed warnInterval (warnReadings before) at htime
  rw [← warned_eq_passed hbefore] at htime
  obtain ⟨warned, hwarned, rfl⟩ := List.mem_map.mp htime
  obtain ⟨hmem, htrue⟩ := List.mem_filter.mp hwarned
  have hreturned := hsound.returned warned (by rw [hlog]; exact List.mem_append_left _ hmem)
  rw [htrue] at hreturned
  exact ⟨warned.caller, warned.method, hreturned, hrecent⟩

/-- Of two calls that warned, the one that left later is a minute later. -/
theorem warned_apart {run : List WarnEvent} {caller caller' : ℕ} {now now' : ℚ}
    (hne : caller ≠ caller')
    (h : (warnIssuersAfter run).call caller = .returned now true)
    (h' : (warnIssuersAfter run).call caller' = .returned now' true) :
    warnInterval ≤ |now - now'| := by
  obtain ⟨last, hsound⟩ := warnIssuersAfter_sound run
  obtain ⟨entry, hentry, rfl, rfl, htrue⟩ := hsound.logged caller now true h
  obtain ⟨entry', hentry', rfl, rfl, htrue'⟩ := hsound.logged caller' now' true h'
  have hspaced : Throttle.Spaced warnInterval (Throttle.passed warnInterval
      (warnReadings (warnIssuersAfter run).log)) :=
    Throttle.passed_spaced warnInterval_nonneg _
  rw [← warned_eq_passed hsound.replays, Throttle.Spaced, List.pairwise_map,
    List.pairwise_filter] at hspaced
  have hgap : ∀ {first second : Monitor.Entry Unit Bool ℚ}
      {before between rest : List (Monitor.Entry Unit Bool ℚ)},
      (warnIssuersAfter run).log = before ++ first :: between ++ second :: rest →
        first.result = true → second.result = true →
          warnInterval ≤ |first.method - second.method| := by
    intro first second before between rest hlog hfirst hsecond
    rw [hlog, List.pairwise_append] at hspaced
    have hapart := hspaced.2.2 first (by simp) second List.mem_cons_self hfirst hsecond
    rw [abs_sub_comm]
    exact le_trans (by linarith) (le_abs_self _)
  obtain ⟨before, rest, hlog⟩ := List.append_of_mem hentry
  obtain ⟨before', rest', hlog'⟩ := List.append_of_mem hentry'
  rcases Monitor.log_order hlog hlog' hne with ⟨between, hboth⟩ | ⟨between, hboth⟩
  · exact hgap hboth htrue htrue'
  · rw [abs_sub_comm]
    exact hgap hboth htrue' htrue

/-- Whatever the order of the threads' steps, and however old the readings they bring to
the lock, two warnings are at least a minute apart, so that a window sees at most one
for each minute and one more; and a call keeps silent only when its reading is less
than a minute after that of a warning, or before it. -/
theorem issuer_warnings_throttled (run : List WarnEvent) :
    (∀ caller caller' now now', caller ≠ caller' →
      (warnIssuersAfter run).call caller = .returned now true →
        (warnIssuersAfter run).call caller' = .returned now' true →
          warnInterval ≤ |now - now'|) ∧
    (∀ caller now, (warnIssuersAfter run).call caller = .returned now false →
      ∃ warner time, (warnIssuersAfter run).call warner = .returned time true ∧
        now - time < warnInterval) ∧
    ∀ start stop : ℚ, start ≤ stop →
      (((warnIssuersAfter run).log.countP fun entry =>
        entry.result && decide (start ≤ entry.method ∧ entry.method ≤ stop) : ℕ) - 1 : ℚ) *
          warnInterval ≤ stop - start := by
  refine ⟨fun caller caller' now now' hne => warned_apart hne,
    fun caller now => warned_of_silent, fun start stop hwindow => ?_⟩
  obtain ⟨last, hsound⟩ := warnIssuersAfter_sound run
  have hcount := Throttle.passed_window warnInterval_nonneg
    (warnReadings (warnIssuersAfter run).log) hwindow
  rw [← warned_eq_passed hsound.replays, List.countP_map, List.countP_filter] at hcount
  simpa [Bool.and_comm] using hcount

/-- How far a call of `_warn_api_keys_misconfigured` has come. -/
inductive WarnPhase where
  | idle
  | due (now : ℚ)
  | done (now : ℚ) (warned : Bool)
deriving DecidableEq

structure WarnState where
  last : Option ℚ
  phase : ℕ → WarnPhase

/-- A call compares its reading with the last warning, and if it is due writes it and
warns. -/
inductive WarnStep where
  | check (caller : ℕ) (now : ℚ)
  | write (caller : ℕ)

def WarnState.move (state : WarnState) (caller : ℕ) (phase : WarnPhase) : WarnState :=
  { state with phase := Function.update state.phase caller phase }

/-- One step of some thread; one that is not its next does nothing. -/
def WarnState.step (state : WarnState) : WarnStep → WarnState
  | .check caller now =>
      match state.phase caller with
      | .idle =>
          state.move caller
            (if Throttle.due warnInterval state.last now then .due now
              else .done now false)
      | _ => state
  | .write caller =>
      match state.phase caller with
      | .due now => { state.move caller (.done now true) with last := some now }
      | _ => state

/-- Calls before the first warning, and after a run of them. -/
def warnApiKeysAfter (run : List WarnStep) : WarnState :=
  final WarnState.step ⟨none, fun _ => .idle⟩ run

theorem warnApiKeysAfter_snoc (past : List WarnStep) (step : WarnStep) :
    warnApiKeysAfter (past ++ [step]) = (warnApiKeysAfter past).step step :=
  final_snoc WarnState.step _ past step

namespace WarnState

variable {state : WarnState} {caller other : ℕ} {phase : WarnPhase} {now : ℚ}

theorem move_phase (state : WarnState) (caller : ℕ) (phase : WarnPhase) (other : ℕ) :
    (state.move caller phase).phase other =
      if other = caller then phase else state.phase other :=
  Function.update_apply state.phase caller phase other

/-- What a step can do. -/
inductive Move (state : WarnState) : WarnStep → WarnState → Prop
  | still (step : WarnStep) : Move state step state
  | holds {caller : ℕ} {now : ℚ} (h : state.phase caller = .idle)
      (hdue : Throttle.due warnInterval state.last now = false) :
      Move state (.check caller now) (state.move caller (.done now false))
  | checks {caller : ℕ} {now : ℚ} (h : state.phase caller = .idle)
      (hdue : Throttle.due warnInterval state.last now = true) :
      Move state (.check caller now) (state.move caller (.due now))
  | writes {caller : ℕ} {now : ℚ} (h : state.phase caller = .due now) :
      Move state (.write caller)
        { state.move caller (.done now true) with last := some now }

theorem step_move (state : WarnState) (step : WarnStep) :
    Move state step (state.step step) := by
  cases step with
  | check caller now =>
      rw [WarnState.step]
      split
      next h =>
        split_ifs with hdue
        · exact .checks h hdue
        · exact .holds h (Bool.eq_false_iff.mpr hdue)
      next => exact .still _
  | write caller =>
      rw [WarnState.step]
      split
      next h => exact .writes h
      next => exact .still _

theorem done_step {warned : Bool} (h : state.phase caller = .done now warned)
    (step : WarnStep) : (state.step step).phase caller = .done now warned := by
  have hmove := step_move state step
  have hstays : ∀ {mover : ℕ} {phase : WarnPhase},
      (∀ now warned, state.phase mover ≠ .done now warned) →
        (state.move mover phase).phase caller = .done now warned := by
    intro mover phase hmover
    rw [move_phase, if_neg]
    · exact h
    · rintro rfl
      exact hmover now warned h
  generalize state.step step = next at hmove
  cases hmove with
  | still _ => exact h
  | holds hidle _ => exact hstays (by rw [hidle]; simp)
  | checks hidle _ => exact hstays (by rw [hidle]; simp)
  | writes hdue => exact hstays (by rw [hdue]; simp)

/-- What is remembered is a warning, and silence follows one by less than a minute. -/
structure Faithful (state : WarnState) : Prop where
  last : ∀ time, state.last = some time →
    ∃ warner, state.phase warner = .done time true
  silent : ∀ caller now, state.phase caller = .done now false →
    ∃ warner time, state.phase warner = .done time true ∧ now - time < warnInterval

theorem Faithful.step (h : Faithful state) (step : WarnStep) :
    Faithful (state.step step) := by
  have hkept : ∀ {warner time}, state.phase warner = .done time true →
      (state.step step).phase warner = .done time true := fun hdone => done_step hdone step
  have hmove := step_move state step
  generalize state.step step = next at hmove hkept
  have hold : ∀ caller now, state.phase caller = .done now false →
      ∃ warner time, next.phase warner = .done time true ∧ now - time < warnInterval := by
    intro caller now hdone
    obtain ⟨warner, time, hwarned, hrecent⟩ := h.silent caller now hdone
    exact ⟨warner, time, hkept hwarned, hrecent⟩
  have hlast : ∀ time, state.last = some time →
      ∃ warner, next.phase warner = .done time true := by
    intro time htime
    obtain ⟨warner, hwarned⟩ := h.last time htime
    exact ⟨warner, hkept hwarned⟩
  cases hmove with
  | still _ => exact h
  | @holds caller now hidle hdue =>
      refine ⟨hlast, fun other found hother => ?_⟩
      rw [move_phase] at hother
      split_ifs at hother
      · cases hother
        cases htime : state.last with
        | none =>
            rw [htime] at hdue
            cases hdue
        | some time =>
            rw [htime, Throttle.due, decide_eq_false_iff_not, not_le] at hdue
            obtain ⟨warner, hwarned⟩ := hlast time htime
            exact ⟨warner, time, hwarned, hdue⟩
      · exact hold other found hother
  | checks hidle hdue =>
      refine ⟨hlast, fun other found hother => ?_⟩
      rw [move_phase] at hother
      split_ifs at hother
      exact hold other found hother
  | @writes caller now hdue =>
      refine ⟨fun time htime => ?_, fun other found hother => ?_⟩
      · cases htime
        exact ⟨caller, by rw [move_phase, if_pos rfl]⟩
      · rw [move_phase] at hother
        split_ifs at hother
        · cases hother
        · exact hold other found hother

/-- What holds as long as no call checks while another is about to write. -/
structure Orderly (state : WarnState) : Prop where
  alone : ∀ caller other now time, state.phase caller = .due now →
    state.phase other = .due time → other = caller
  ready : ∀ caller now, state.phase caller = .due now →
    Throttle.due warnInterval state.last now = true
  latest : ∀ caller now, state.phase caller = .done now true →
    ∃ last, state.last = some last ∧ now ≤ last
  apart : ∀ caller other now time, caller ≠ other →
    state.phase caller = .done now true → state.phase other = .done time true →
      warnInterval ≤ |now - time|

theorem Orderly.step (h : Orderly state) (step : WarnStep)
    (hclear : ∀ caller now, step = .check caller now →
      ∀ other time, state.phase other ≠ .due time) :
    Orderly (state.step step) := by
  have hmove := step_move state step
  generalize state.step step = next at hmove
  cases hmove with
  | still _ => exact h
  | @holds caller now hidle hdue =>
      have hother : ∀ {other : ℕ} {phase : WarnPhase},
          (state.move caller (.done now false)).phase other = phase →
            phase ≠ .done now false → state.phase other = phase := by
        intro other phase heq hne
        rw [move_phase] at heq
        split_ifs at heq
        · exact absurd heq.symm hne
        · exact heq
      constructor
      · intro first second now time hfirst hsecond
        exact h.alone first second now time (hother hfirst (by simp))
          (hother hsecond (by simp))
      · exact fun first now hfirst => h.ready first now (hother hfirst (by simp))
      · exact fun first now hfirst => h.latest first now (hother hfirst (by simp))
      · intro first second now time hne hfirst hsecond
        exact h.apart first second now time hne (hother hfirst (by simp))
          (hother hsecond (by simp))
  | @checks caller now hidle hdue =>
      have hnobody := hclear caller now rfl
      have honly : ∀ {other : ℕ} {time : ℚ},
          (state.move caller (.due now)).phase other = .due time →
            other = caller ∧ time = now := by
        intro other time heq
        rw [move_phase] at heq
        split_ifs at heq with hcaller
        · cases heq
          exact ⟨hcaller, rfl⟩
        · exact absurd heq (hnobody other time)
      have hdone : ∀ {other : ℕ} {time : ℚ},
          (state.move caller (.due now)).phase other = .done time true →
            state.phase other = .done time true := by
        intro other time heq
        rw [move_phase] at heq
        split_ifs at heq
        exact heq
      constructor
      · intro first second now time hfirst hsecond
        rw [(honly hfirst).1, (honly hsecond).1]
      · intro first time hfirst
        rw [(honly hfirst).2]
        exact hdue
      · exact fun first time hfirst => h.latest first time (hdone hfirst)
      · intro first second now time hne hfirst hsecond
        exact h.apart first second now time hne (hdone hfirst) (hdone hsecond)
  | @writes caller now hwrites =>
      have hready := h.ready caller now hwrites
      have hbefore : ∀ {other : ℕ} {time : ℚ}, state.phase other = .done time true →
          time + warnInterval ≤ now := by
        intro other time hdone
        obtain ⟨last, hlast, hle⟩ := h.latest other time hdone
        rw [hlast, Throttle.due, decide_eq_true_iff] at hready
        linarith
      have hdone : ∀ {other : ℕ} {time : ℚ},
          (state.move caller (.done now true)).phase other = .done time true →
            (other = caller ∧ time = now) ∨
              other ≠ caller ∧ state.phase other = .done time true := by
        intro other time heq
        rw [move_phase] at heq
        split_ifs at heq with hcaller
        · cases heq
          exact Or.inl ⟨hcaller, rfl⟩
        · exact Or.inr ⟨hcaller, heq⟩
      have hdue : ∀ {other : ℕ} {time : ℚ},
          (state.move caller (.done now true)).phase other ≠ .due time := by
        intro other time heq
        rw [move_phase] at heq
        split_ifs at heq with hcaller
        exact hcaller (h.alone caller other now time hwrites heq)
      constructor
      · exact fun first second found time hfirst => absurd hfirst hdue
      · exact fun first found hfirst => absurd hfirst hdue
      · intro first time hfirst
        refine ⟨now, rfl, ?_⟩
        rcases hdone hfirst with ⟨_, rfl⟩ | ⟨_, hold⟩
        · exact le_rfl
        · have hgap := hbefore hold
          linarith [warnInterval_nonneg]
      · intro first second found time hne hfirst hsecond
        rcases hdone hfirst with ⟨rfl, rfl⟩ | ⟨_, hearlier⟩
        · rcases hdone hsecond with ⟨rfl, _⟩ | ⟨_, hearlier⟩
          · exact absurd rfl hne
          · have hgap := hbefore hearlier
            exact le_trans (by linarith) (le_abs_self _)
        · rcases hdone hsecond with ⟨rfl, rfl⟩ | ⟨_, hearlier'⟩
          · have hgap := hbefore hearlier
            rw [abs_sub_comm]
            exact le_trans (by linarith) (le_abs_self _)
          · exact h.apart first second found time hne hearlier hearlier'

end WarnState

/-- In every run a call keeps silent only when its reading is less than a minute after
that of a warning, or before it.  Two warnings are a minute apart as long as no call
checks while another is about to write; nothing in the function sees to that. -/
theorem api_key_warnings_throttled (run : List WarnStep) :
    (∀ caller now, (warnApiKeysAfter run).phase caller = .done now false →
      ∃ warner time, (warnApiKeysAfter run).phase warner = .done time true ∧
        now - time < warnInterval) ∧
    ((∀ past caller now later, run = past ++ .check caller now :: later →
        ∀ other time, (warnApiKeysAfter past).phase other ≠ .due time) →
      ∀ caller other now time, caller ≠ other →
        (warnApiKeysAfter run).phase caller = .done now true →
          (warnApiKeysAfter run).phase other = .done time true →
            warnInterval ≤ |now - time|) := by
  constructor
  · have hfaithful : (warnApiKeysAfter run).Faithful := by
      induction run using List.reverseRecOn with
      | nil =>
          constructor
          · intro time h
            cases h
          · intro caller now h
            cases h
      | append_singleton past step ih =>
          rw [warnApiKeysAfter_snoc]
          exact ih.step step
    exact hfaithful.silent
  · intro hclear
    have horderly : (warnApiKeysAfter run).Orderly := by
      induction run using List.reverseRecOn with
      | nil =>
          constructor
          · intro caller other now time h
            cases h
          · intro caller now h
            cases h
          · intro caller now h
            cases h
          · intro caller other now time hne h
            cases h
      | append_singleton past step ih =>
          rw [warnApiKeysAfter_snoc]
          apply (ih _).step step
          · rintro caller now rfl
            exact hclear past caller now [] rfl
          · intro before caller now later hpast
            exact hclear before caller now (later ++ [step]) (by simp [hpast])
    exact horderly.apart

namespace Reference

/-- Three calls one after the other, the second of them too early. -/
def warningsInTurn : List WarnStep :=
  [.check 0 0, .write 0, .check 1 59, .check 2 61, .write 2]

theorem warningsInTurn_clear {past later : List WarnStep} {caller : ℕ} {now : ℚ}
    (h : warningsInTurn = past ++ .check caller now :: later) (other : ℕ) (time : ℚ) :
    (warnApiKeysAfter past).phase other ≠ .due time := by
  have hpast : past = warningsInTurn.take past.length := by rw [h, List.take_left]
  have hstep : warningsInTurn[past.length]? = some (.check caller now) := by
    rw [h, List.getElem?_append_right le_rfl, Nat.sub_self]
    rfl
  have hlt : past.length < 5 := by
    have hlength := congrArg List.length h
    rw [List.length_append, List.length_cons] at hlength
    change 5 = _ at hlength
    omega
  rw [hpast]
  clear hpast h
  generalize past.length = n at *
  interval_cases n
  · exact fun hdue => nomatch hdue
  · cases hstep
  · rcases other with _ | other <;> exact fun hdue => nomatch hdue
  · have hsilent : (warnApiKeysAfter (warningsInTurn.take 3)).phase 1 = .done 59 false := by
      decide +kernel
    rcases other with _ | _ | other
    · exact fun hdue => nomatch hdue
    · exact fun hdue => nomatch hsilent.symm.trans hdue
    · exact fun hdue => nomatch hdue
  · cases hstep

end Reference

/-- The first and the third call warn, a minute apart. -/
theorem api_key_warnings_throttled_in_turn :
    (warnApiKeysAfter Reference.warningsInTurn).phase 0 = .done 0 true ∧
      (warnApiKeysAfter Reference.warningsInTurn).phase 1 = .done 59 false ∧
      (warnApiKeysAfter Reference.warningsInTurn).phase 2 = .done 61 true ∧
      warnInterval ≤ |(0 : ℚ) - 61| :=
  ⟨by decide +kernel, by decide +kernel, by decide +kernel,
    (api_key_warnings_throttled Reference.warningsInTurn).2
      (fun _ _ _ _ h => Reference.warningsInTurn_clear h) 0 2 0 61 (by decide)
      (by decide +kernel) (by decide +kernel)⟩

/-- Two calls that check before either writes both warn. -/
example : (warnApiKeysAfter [.check 0 0, .check 1 1, .write 0, .write 1]).phase 0 =
      .done 0 true ∧
    (warnApiKeysAfter [.check 0 0, .check 1 1, .write 0, .write 1]).phase 1 =
      .done 1 true :=
  ⟨rfl, rfl⟩

end QwedA2A
