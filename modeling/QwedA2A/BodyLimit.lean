/-
The body limit of the gateway's routes: a declared length is checked before
anything is read, and the streamed body is counted as it arrives.
-/
import QwedA2A.PyDecimal
import QwedA2A.StreamBudget

namespace QwedA2A

open StreamBudget

def bodyMethods : List PyStr := [py "POST", py "PUT", py "PATCH"]

/-- What the route raises: an HTTPException, or anything else. -/
inductive RouteExc where
  | http (statusCode : ℕ) (detail : PyStr)
  | other (exc : PyExc)

/-- A message of ASGI's `receive`, with the keys of an `http.request`. -/
structure AsgiMessage where
  type : PyStr
  body : Option (List UInt8) := none
  moreBody : Option Bool := none

def bodyTooLarge (limit : ℕ) : RouteExc :=
  .http 413 (py "Request body exceeds the " ++ natText limit ++ py "-byte limit.")

def invalidContentLength : RouteExc :=
  .http 400 (py "Invalid Content-Length header.")

/-- `declared.isascii() and declared.isdigit()`. -/
def isAsciiDigits (declared : PyStr) : Bool :=
  !declared.isEmpty && declared.all PyDecimal.isDigit

/-- `int(declared)` of ASCII digits, under the interpreter's digit limit. -/
def intOfDigits (declared : PyStr) : Except PyExc ℕ :=
  if intMaxStrDigits < declared.length then
    .error ⟨.valueError, py "Exceeds the limit (4300 digits) for integer string conversion: value has " ++
      natText declared.length ++
      py " digits; use sys.set_int_max_str_digits() to increase the limit"⟩
  else .ok (PyDecimal.digitsValue declared)

/-- Content-Length fast path: 400 if malformed, 413 if over the limit. -/
def rejectDeclaredOversize (declared : Option PyStr) (limit : ℕ) :
    Except RouteExc Unit :=
  match declared with
  | none => .ok ()
  | some declared =>
      if !isAsciiDigits declared then .error invalidContentLength
      else
        match intOfDigits declared with
        | .error exc => .error (.other exc)
        | .ok length => if limit < length then .error (bodyTooLarge limit) else .ok ()

/-- `len(message.get("body", b""))`. -/
def AsgiMessage.bodyLength (message : AsgiMessage) : ℕ :=
  (message.body.getD []).length

/-- One call of the wrapped `receive`, after `received` bytes: what it returns or
raises, and the bytes received then. -/
def cappedReceive (limit received : ℕ) (message : AsgiMessage) :
    Except RouteExc AsgiMessage × ℕ :=
  if message.type = py "http.request" then
    let received := received + message.bodyLength
    if limit < received then (.error (bodyTooLarge limit), received)
    else (.ok message, received)
  else (.ok message, received)

/-- The calls of the wrapped `receive` that the handler makes, until one raises:
how they end, and the messages it is given. -/
def receiveAll (limit received : ℕ) :
    List AsgiMessage → Except RouteExc Unit × List AsgiMessage
  | [] => (.ok (), [])
  | message :: rest =>
      match cappedReceive limit received message with
      | (.error exc, _) => (.error exc, [])
      | (.ok message, received) =>
          let later := receiveAll limit received rest
          (later.1, message :: later.2)

/-- The route around the original handler, which receives as many messages as are
listed: what the route itself raises, and what it passes on.  The limit is the
interceptor's payload limit and the allowance for the envelope. -/
def sizeLimitedHandler (method : PyStr) (limit : ℕ) (declared : Option PyStr)
    (messages : List AsgiMessage) : Except RouteExc Unit × List AsgiMessage :=
  if method ∉ bodyMethods then (.ok (), messages)
  else
    match rejectDeclaredOversize declared limit with
    | .error exc => (.error exc, [])
    | .ok () => receiveAll limit 0 messages

def AsgiMessage.requestBytes (message : AsgiMessage) : ℕ :=
  if message.type = py "http.request" then message.bodyLength else 0

theorem cappedReceive_of_over {limit received : ℕ} {message : AsgiMessage}
    (hreceived : received ≤ limit) (h : limit < received + message.requestBytes) :
    ∃ after, cappedReceive limit received message =
      (.error (bodyTooLarge limit), after) := by
  rw [AsgiMessage.requestBytes] at h
  split_ifs at h with hrequest
  · exact ⟨received + message.bodyLength, by
      rw [cappedReceive, if_pos hrequest]; exact if_pos h⟩
  · omega

theorem cappedReceive_of_within {limit received : ℕ} {message : AsgiMessage}
    (h : ¬ limit < received + message.requestBytes) :
    cappedReceive limit received message =
      (.ok message, received + message.requestBytes) := by
  rw [AsgiMessage.requestBytes] at h ⊢
  rw [cappedReceive]
  split_ifs at h ⊢ with hrequest
  · exact if_neg h
  · rfl

/-- The route passes the messages on under the budget of its limit. -/
theorem receiveAll_eq {limit received : ℕ} (hreceived : received ≤ limit)
    (messages : List AsgiMessage) :
    receiveAll limit received messages =
      (if (pass AsgiMessage.requestBytes limit received messages).2 then
        .error (bodyTooLarge limit) else .ok (),
        (pass AsgiMessage.requestBytes limit received messages).1) := by
  induction messages generalizing received with
  | nil => rfl
  | cons message rest ih =>
      rw [receiveAll, StreamBudget.pass]
      by_cases hover : limit < received + message.requestBytes
      · obtain ⟨after, hraise⟩ := cappedReceive_of_over hreceived hover
        rw [if_pos hover, hraise]
        rfl
      · rw [if_neg hover, cappedReceive_of_within hover]
        simp only [ih (not_lt.mp hover)]

/-- The length of a well-formed header. -/
def DeclaresAtMost (declared : Option PyStr) (limit : ℕ) : Prop :=
  ∀ text, declared = some text →
    isAsciiDigits text = true ∧ PyDecimal.digitsValue text ≤ limit

/-- What the route promises of one request. -/
structure EnforcesLimit (method : PyStr) (limit : ℕ) (declared : Option PyStr)
    (messages : List AsgiMessage) : Prop where
  unmodified : (sizeLimitedHandler method limit declared messages).2 <+: messages
  bounded : total AsgiMessage.requestBytes
    (sizeLimitedHandler method limit declared messages).2 ≤ limit
  malformed : (sizeLimitedHandler method limit declared messages).1 =
      .error invalidContentLength ↔
    ∃ text, declared = some text ∧ isAsciiDigits text = false
  tooLarge : (sizeLimitedHandler method limit declared messages).1 =
      .error (bodyTooLarge limit) ↔
    (∃ text, declared = some text ∧ isAsciiDigits text = true ∧
      limit < PyDecimal.digitsValue text) ∨
    (DeclaresAtMost declared limit ∧ limit < total AsgiMessage.requestBytes messages)
  atOnce : DeclaresAtMost declared limit →
    limit < total AsgiMessage.requestBytes messages →
      ∃ message rest,
        messages = (sizeLimitedHandler method limit declared messages).2 ++
          message :: rest ∧
        limit < total AsgiMessage.requestBytes
          (sizeLimitedHandler method limit declared messages).2 + message.requestBytes
  nothingElse : ∀ exc,
    (sizeLimitedHandler method limit declared messages).1 = .error exc →
      exc = invalidContentLength ∨ exc = bodyTooLarge limit
  whole : total AsgiMessage.requestBytes messages ≤ limit →
    (∀ text, declared = some text → isAsciiDigits text = true ∧
      PyDecimal.digitsValue text = total AsgiMessage.requestBytes messages) →
      sizeLimitedHandler method limit declared messages = (.ok (), messages)

/-- A digit string in the header is short enough for `int`. -/
def DeclaredConvertible (declared : Option PyStr) : Prop :=
  ∀ text, declared = some text → isAsciiDigits text = true →
    text.length ≤ intMaxStrDigits

theorem rejectDeclaredOversize_of_malformed {text : PyStr} (limit : ℕ)
    (h : isAsciiDigits text = false) :
    rejectDeclaredOversize (some text) limit = .error invalidContentLength := by
  simp only [rejectDeclaredOversize, h, Bool.not_false, if_true]

theorem rejectDeclaredOversize_of_overlong {text : PyStr} (limit : ℕ)
    (hdigits : isAsciiDigits text = true) (h : intMaxStrDigits < text.length) :
    ∃ exc, rejectDeclaredOversize (some text) limit = .error (.other exc) := by
  simp only [rejectDeclaredOversize, hdigits, Bool.not_true, Bool.false_eq_true,
    if_false, intOfDigits, h, if_true]
  exact ⟨_, rfl⟩

theorem rejectDeclaredOversize_of_digits {text : PyStr} (limit : ℕ)
    (hdigits : isAsciiDigits text = true) (h : text.length ≤ intMaxStrDigits) :
    rejectDeclaredOversize (some text) limit =
      if limit < PyDecimal.digitsValue text then .error (bodyTooLarge limit)
      else .ok () := by
  simp only [rejectDeclaredOversize, hdigits, Bool.not_true, Bool.false_eq_true,
    if_false, intOfDigits, not_lt.mpr h]

section Route

variable {method : PyStr} {limit : ℕ} {declared : Option PyStr}
  {messages : List AsgiMessage}

/-- Where `int` converts the header, the route refuses it or streams the body. -/
theorem sizeLimitedHandler_cases (limit : ℕ) (messages : List AsgiMessage)
    (hmethod : method ∈ bodyMethods)
    (hconvertible : DeclaredConvertible declared) :
    (∃ text, declared = some text ∧ isAsciiDigits text = false ∧
        sizeLimitedHandler method limit declared messages =
          (.error invalidContentLength, [])) ∨
      (∃ text, declared = some text ∧ isAsciiDigits text = true ∧
        limit < PyDecimal.digitsValue text ∧
        sizeLimitedHandler method limit declared messages =
          (.error (bodyTooLarge limit), [])) ∨
      (DeclaresAtMost declared limit ∧
        sizeLimitedHandler method limit declared messages =
          receiveAll limit 0 messages) := by
  rw [sizeLimitedHandler, if_neg (not_not.mpr hmethod)]
  cases declared with
  | none =>
      refine Or.inr (Or.inr ⟨fun text htext => ?_, rfl⟩)
      cases htext
  | some text =>
      cases hdigits : isAsciiDigits text with
      | false =>
          refine Or.inl ⟨text, rfl, hdigits, ?_⟩
          rw [rejectDeclaredOversize_of_malformed limit hdigits]
      | true =>
          rw [rejectDeclaredOversize_of_digits limit hdigits
            (hconvertible text rfl hdigits)]
          by_cases hlarge : limit < PyDecimal.digitsValue text
          · exact Or.inr (Or.inl ⟨text, rfl, hdigits, hlarge, by rw [if_pos hlarge]⟩)
          · refine Or.inr (Or.inr ⟨fun other hother => ?_, by rw [if_neg hlarge]⟩)
            cases hother
            exact ⟨hdigits, not_lt.mp hlarge⟩

/-- What the route itself raises: one of its two refusals, or what `int` does for more
digits than it converts. -/
theorem sizeLimitedHandler_error {exc : RouteExc}
    (h : (sizeLimitedHandler method limit declared messages).1 = .error exc) :
    exc = invalidContentLength ∨ exc = bodyTooLarge limit ∨
      ∃ raised text, exc = .other raised ∧ declared = some text ∧
        isAsciiDigits text = true ∧ intMaxStrDigits < text.length := by
  by_cases hmethod : method ∈ bodyMethods
  · by_cases hconvertible : DeclaredConvertible declared
    · rcases sizeLimitedHandler_cases limit messages hmethod hconvertible with
        ⟨_, _, _, heq⟩ | ⟨_, _, _, _, heq⟩ | ⟨_, heq⟩
      · rw [heq] at h
        cases h
        exact Or.inl rfl
      · rw [heq] at h
        cases h
        exact Or.inr (Or.inl rfl)
      · rw [heq, receiveAll_eq (Nat.zero_le limit)] at h
        dsimp only at h
        split_ifs at h
        cases h
        exact Or.inr (Or.inl rfl)
    · rw [DeclaredConvertible] at hconvertible
      push Not at hconvertible
      obtain ⟨text, rfl, hdigits, hlong⟩ := hconvertible
      obtain ⟨raised, hraised⟩ := rejectDeclaredOversize_of_overlong limit hdigits hlong
      rw [sizeLimitedHandler, if_neg (not_not.mpr hmethod), hraised] at h
      cases h
      exact Or.inr (Or.inr ⟨raised, text, rfl, rfl, hdigits, hlong⟩)
  · rw [sizeLimitedHandler, if_pos hmethod] at h
    cases h

/-- A request refused by its header passes nothing on. -/
theorem enforcesLimit_of_refused {exc : RouteExc}
    (h : sizeLimitedHandler method limit declared messages = (.error exc, []))
    (hmalformed : exc = invalidContentLength ↔
      ∃ text, declared = some text ∧ isAsciiDigits text = false)
    (hlarge : exc = bodyTooLarge limit ↔ ∃ text, declared = some text ∧
      isAsciiDigits text = true ∧ limit < PyDecimal.digitsValue text)
    (hknown : exc = invalidContentLength ∨ exc = bodyTooLarge limit) :
    EnforcesLimit method limit declared messages := by
  have hdeclared : ¬ DeclaresAtMost declared limit := by
    intro hmost
    rcases hknown with hbad | hover
    · obtain ⟨text, htext, hdigits⟩ := hmalformed.mp hbad
      rw [(hmost text htext).1] at hdigits
      cases hdigits
    · obtain ⟨text, htext, _, hvalue⟩ := hlarge.mp hover
      exact absurd hvalue (not_lt.mpr (hmost text htext).2)
  refine ⟨?_, ?_, ?_, ?_, fun hmost => absurd hmost hdeclared, ?_, ?_⟩
  · rw [h]
    exact List.nil_prefix
  · rw [h]
    exact Nat.zero_le limit
  · rw [h, ← hmalformed]
    exact ⟨Except.error.inj, congrArg _⟩
  · rw [h, ← hlarge, or_iff_left fun hstream => hdeclared hstream.1]
    exact ⟨Except.error.inj, congrArg _⟩
  · intro found hfound
    rw [h] at hfound
    cases hfound
    exact hknown
  · intro htotal hconsistent
    refine absurd (fun text htext => ?_) hdeclared
    obtain ⟨hdigits, hvalue⟩ := hconsistent text htext
    exact ⟨hdigits, hvalue ▸ htotal⟩

/-- A request whose header passes is limited by what arrives. -/
theorem enforcesLimit_of_streamed (hmost : DeclaresAtMost declared limit)
    (h : sizeLimitedHandler method limit declared messages =
      receiveAll limit 0 messages) :
    EnforcesLimit method limit declared messages := by
  have hnone : ¬ ∃ text, declared = some text ∧ isAsciiDigits text = false := by
    rintro ⟨text, htext, hdigits⟩
    rw [(hmost text htext).1] at hdigits
    cases hdigits
  have hsmall : ¬ ∃ text, declared = some text ∧ isAsciiDigits text = true ∧
      limit < PyDecimal.digitsValue text := by
    rintro ⟨text, htext, _, hvalue⟩
    exact absurd hvalue (not_lt.mpr (hmost text htext).2)
  have hdiffer : bodyTooLarge limit ≠ invalidContentLength := by
    intro heq
    cases heq
  have hcut := pass_cut_iff AsgiMessage.requestBytes messages
    (Nat.zero_le limit)
  rw [Nat.zero_add] at hcut
  rw [receiveAll_eq (Nat.zero_le limit)] at h
  refine ⟨?_, ?_, ?_, ?_, fun _ htotal => ?_, fun exc hexc => ?_,
    fun htotal _ => ?_⟩
  · rw [h]
    exact pass_prefix messages
  · rw [h]
    simpa using pass_total_le AsgiMessage.requestBytes messages
      (Nat.zero_le limit)
  · rw [h, iff_false_right hnone]
    dsimp only
    split_ifs with hover
    · exact fun heq => hdiffer (Except.error.inj heq)
    · exact fun heq => nomatch heq
  · rw [h, or_iff_right hsmall, and_iff_right hmost, ← hcut]
    dsimp only
    split_ifs with hover
    · exact iff_of_true rfl hover
    · exact iff_of_false (fun heq => nomatch heq) hover
  · rw [h]
    obtain ⟨message, rest, heq, hover⟩ := pass_cut_at (hcut.mpr htotal)
    rw [Nat.zero_add] at hover
    exact ⟨message, rest, heq, hover⟩
  · rw [h] at hexc
    dsimp only at hexc
    split_ifs at hexc
    cases hexc
    exact Or.inr rfl
  · have hwhole : (pass AsgiMessage.requestBytes limit 0 messages).2 = false := by
      rw [Bool.eq_false_iff, ne_eq, hcut, not_lt]
      exact htotal
    rw [h, hwhole, pass_of_not_cut hwhole]
    rfl

end Route

/-- The route keeps its promise on a request with a body exactly when a digit string
in its header is short enough for `int`. -/
theorem size_limit_enforced_iff (method : PyStr) (limit : ℕ)
    (declared : Option PyStr) (messages : List AsgiMessage)
    (hmethod : method ∈ bodyMethods) :
    EnforcesLimit method limit declared messages ↔ DeclaredConvertible declared := by
  constructor
  · intro h text htext hdigits
    by_contra hlong
    obtain ⟨exc, hraise⟩ := rejectDeclaredOversize_of_overlong limit hdigits
      (not_le.mp hlong)
    have hroute : (sizeLimitedHandler method limit declared messages).1 =
        .error (.other exc) := by
      rw [sizeLimitedHandler, if_neg (not_not.mpr hmethod), htext, hraise]
    rcases h.nothingElse _ hroute with heq | heq <;> cases heq
  · intro hconvertible
    rcases sizeLimitedHandler_cases limit messages hmethod hconvertible with
      ⟨text, rfl, hdigits, h⟩ | ⟨text, rfl, hdigits, hvalue, h⟩ | ⟨hmost, h⟩
    · refine enforcesLimit_of_refused h ?_ ?_ (Or.inl rfl)
      · exact iff_of_true rfl ⟨text, rfl, hdigits⟩
      · refine iff_of_false (fun heq => nomatch heq) ?_
        rintro ⟨_, heq, hother, _⟩
        cases heq
        rw [hdigits] at hother
        cases hother
    · refine enforcesLimit_of_refused h ?_ ?_ (Or.inr rfl)
      · refine iff_of_false (fun heq => nomatch heq) ?_
        rintro ⟨_, heq, hother⟩
        cases heq
        rw [hdigits] at hother
        cases hother
      · exact iff_of_true rfl ⟨text, rfl, hdigits, hvalue⟩
    · exact enforcesLimit_of_streamed hmost h

/-- A POST of three bytes that declares three, under a limit of four. -/
theorem size_limit_enforced_iff_three :
    EnforcesLimit (py "POST") 4 (some (py "3"))
      [⟨py "http.request", some [1, 2, 3], some false⟩] :=
  (size_limit_enforced_iff (py "POST") 4 (some (py "3"))
    [⟨py "http.request", some [1, 2, 3], some false⟩] (by decide +kernel)).mpr
      fun _ htext _ => by cases htext; decide +kernel

def overlongContentLength : PyStr := List.replicate 4300 0x30 ++ py "3"

/-- A header of 4301 digits that declares the three bytes of its body. -/
theorem overlong_content_length_escapes :
    (∃ exc, (sizeLimitedHandler (py "POST") 4 (some overlongContentLength)
        [⟨py "http.request", some [1, 2, 3], some false⟩]).1 = .error (.other exc)) ∧
      PyDecimal.digitsValue overlongContentLength = 3 ∧
      ¬ EnforcesLimit (py "POST") 4 (some overlongContentLength)
        [⟨py "http.request", some [1, 2, 3], some false⟩] := by
  have hdigits : isAsciiDigits overlongContentLength = true := by
    rw [isAsciiDigits, overlongContentLength, List.all_append, List.all_replicate]
    decide
  have hlong : intMaxStrDigits < overlongContentLength.length := by
    rw [overlongContentLength, List.length_append, List.length_replicate]
    decide
  have hvalue : PyDecimal.digitsValue overlongContentLength = 3 := by
    decide +kernel
  obtain ⟨exc, hraise⟩ := rejectDeclaredOversize_of_overlong 4 hdigits hlong
  have hroute : (sizeLimitedHandler (py "POST") 4 (some overlongContentLength)
      [⟨py "http.request", some [1, 2, 3], some false⟩]).1 = .error (.other exc) := by
    rw [sizeLimitedHandler, if_neg (by decide), hraise]
  refine ⟨⟨exc, hroute⟩, hvalue, fun h => ?_⟩
  rcases h.nothingElse _ hroute with heq | heq <;> cases heq

end QwedA2A
