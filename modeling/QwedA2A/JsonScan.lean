/-
What the scanners of `json.loads` do on every text.  They take characters off the
front, so no loop runs out of fuel; and the floats they read are floats.
-/
import QwedA2A.JsonLoads

namespace QwedA2A

namespace PyJson

/-- A scanner that reads something, and refuses the empty text. -/
structure Reads {α : Type} (refusal : PyExc) (scanner : Scanner α) : Prop where
  empty : scanner [] = .error refusal
  shorter : ∀ text value rest, scanner text = .ok (value, rest) →
    rest.length < text.length

theorem length_skipBlanks_le (text : PyStr) :
    (skipBlanks text).length ≤ text.length :=
  (List.dropWhile_sublist _).length_le

theorem scanHex4_length {text : PyStr} {unit : ℕ} {rest : PyStr}
    (h : scanHex4 text = some (unit, rest)) : rest.length < text.length := by
  match text with
  | a :: b :: c :: d :: tail =>
      simp only [scanHex4, Option.bind_eq_bind, Option.bind_eq_some_iff,
        Option.some.injEq, Prod.mk.injEq] at h
      obtain ⟨_, _, _, _, _, _, _, _, _, rfl⟩ := h
      simp only [List.length_cons]
      omega
  | [] | [_] | [_, _] | [_, _, _] => cases h

theorem scanLowSurrogate_length {text : PyStr} {low : ℕ} {rest : PyStr}
    (h : scanLowSurrogate text = .ok (some (low, rest))) :
    rest.length < text.length := by
  match text with
  | slash :: u :: tail =>
      rw [scanLowSurrogate] at h
      split_ifs at h with hescape
      · split at h
        · cases h
        next unit after hhex =>
          split_ifs at h with hlow
          · cases h
            have hlength := scanHex4_length hhex
            simp only [List.length_cons]
            omega
          · cases h
      · cases h
  | [] | [_] => cases h

theorem scanEscape_length {text : PyStr} {c : PyChar} {rest : PyStr}
    (h : scanEscape text = .ok (c, rest)) : rest.length < text.length := by
  cases text with
  | nil => cases h
  | cons head tail =>
      rw [scanEscape] at h
      rw [List.length_cons]
      split_ifs at h with hu
      · split at h
        · cases h
        next unit after hhex =>
          have hlength := scanHex4_length hhex
          split_ifs at h with hhigh
          · obtain ⟨pair, hpair, h⟩ := bind_eq_ok.mp h
            cases pair with
            | none =>
                obtain ⟨_, rfl⟩ := Prod.mk.inj (Except.ok.inj h)
                omega
            | some low =>
                obtain ⟨_, rfl⟩ := Prod.mk.inj (Except.ok.inj h)
                have hlow := scanLowSurrogate_length hpair
                omega
          · obtain ⟨_, rfl⟩ := Prod.mk.inj (Except.ok.inj h)
            omega
      · split at h
        · cases h
          omega
        · cases h

theorem scanString_length {fuel : ℕ} {text chars rest : PyStr}
    (h : scanString fuel text = .ok (chars, rest)) :
    rest.length < text.length := by
  induction fuel generalizing text chars with
  | zero => cases h
  | succ fuel ih =>
      cases text with
      | nil => cases h
      | cons c tail =>
          rw [scanString] at h
          rw [List.length_cons]
          split_ifs at h with hquote hslash hcontrol
          · cases h
            omega
          · obtain ⟨⟨char, after⟩, hescape, h⟩ := bind_eq_ok.mp h
            obtain ⟨⟨more, last⟩, hmore, h⟩ := bind_eq_ok.mp h
            cases h
            have hlength := scanEscape_length hescape
            have hrest := ih hmore
            omega
          · obtain ⟨⟨more, last⟩, hmore, h⟩ := bind_eq_ok.mp h
            cases h
            have hrest := ih hmore
            omega

/-- A string loop with more fuel than text reads the same. -/
theorem scanString_fuel {fuel more : ℕ} {text : PyStr}
    (hfuel : text.length ≤ fuel) (hmore : text.length ≤ more) :
    scanString fuel text = scanString more text := by
  induction fuel generalizing more text with
  | zero =>
      rw [List.eq_nil_of_length_eq_zero (Nat.le_zero.mp hfuel)]
      cases more <;> rfl
  | succ fuel ih =>
      cases text with
      | nil => cases more <;> rfl
      | cons c tail =>
          obtain ⟨more, rfl⟩ := Nat.exists_eq_succ_of_ne_zero
            (Nat.ne_of_gt (Nat.lt_of_lt_of_le (Nat.succ_pos _) hmore))
          rw [List.length_cons] at hfuel hmore
          have htail : scanString fuel tail = scanString more tail :=
            ih (by omega) (by omega)
          rw [scanString, scanString, htail]
          cases hescape : scanEscape tail with
          | error exc => rfl
          | ok read =>
              obtain ⟨char, rest⟩ := read
              have hlength := scanEscape_length hescape
              have hrest : scanString fuel rest = scanString more rest :=
                ih (by omega) (by omega)
              simp only [ok_bind, hrest]

theorem splitSign_length_le (text : PyStr) :
    (PyDecimal.splitSign text).2.length ≤ text.length := by
  cases text with
  | nil => exact le_rfl
  | cons c rest =>
      rw [PyDecimal.splitSign]
      split_ifs
      · exact Nat.le_succ _
      · exact Nat.le_succ _
      · exact le_rfl

theorem scanExponent_length_le {text : PyStr} {exponent : ℤ} {rest : PyStr}
    (h : scanExponent text = some (exponent, rest)) :
    rest.length ≤ text.length := by
  cases text with
  | nil => cases h
  | cons c tail =>
      rw [scanExponent] at h
      split_ifs at h with hmark
      have hsign := splitSign_length_le tail
      have hdigits := (List.dropWhile_sublist (l := (PyDecimal.splitSign tail).2)
        PyDecimal.isDigit).length_le
      simp only at h
      split_ifs at h with hnone <;> cases h
      all_goals
        rw [List.length_cons]
        omega

/-- A number takes at least the first of its digits. -/
theorem scanNumber_length {interp : Interpreter} {text : PyStr} {value : PyVal}
    {rest : PyStr} (h : scanNumber interp text = .ok (value, rest)) :
    rest.length < text.length := by
  have hbody : (splitMinus text).2.length ≤ text.length := by
    rw [splitMinus]
    split_ifs
    · exact List.length_tail ▸ Nat.sub_le _ _
    · exact le_rfl
  have hfraction : ∀ tail : PyStr, (afterFraction tail).length ≤ tail.length := by
    intro tail
    rw [afterFraction]
    split_ifs
    · exact le_rfl
    · exact (List.drop_sublist _ _).length_le
  by_cases hwhole : wholeDigits (splitMinus text).2 = []
  · rw [scanNumber, if_pos hwhole] at h
    cases h
  rw [scanNumber, if_neg hwhole] at h
  have hdigits : 0 < (wholeDigits (splitMinus text).2).length :=
    List.length_pos_iff.mpr hwhole
  have hnonempty : 0 < (splitMinus text).2.length := by
    by_contra hempty
    rw [List.eq_nil_of_length_eq_zero (Nat.eq_zero_of_not_pos hempty)] at hwhole
    exact hwhole rfl
  have hafter : (afterFraction ((splitMinus text).2.drop
      (wholeDigits (splitMinus text).2).length)).length < text.length := by
    refine lt_of_le_of_lt (hfraction _) ?_
    rw [List.length_drop]
    omega
  split at h
  next exponent last hexponent =>
    cases h
    exact lt_of_le_of_lt (scanExponent_length_le hexponent) hafter
  next =>
    split_ifs at h
    · obtain ⟨number, _, h⟩ := bind_eq_ok.mp h
      cases h
      exact hafter
    · cases h
      exact hafter

theorem scanScalar_length {interp : Interpreter} {text : PyStr} {value : PyVal}
    {rest : PyStr} (h : scanScalar interp text = .ok (value, rest)) :
    rest.length < text.length := by
  rw [scanScalar] at h
  split at h
  next literal hliteral =>
    cases h
    have hfound : literal.1.isPrefixOf text = true := by
      simpa using List.find?_some hliteral
    have hprefix := (List.isPrefixOf_iff_prefix.mp hfound).length_le
    have hpos : 0 < literal.1.length := by
      have hmem := List.mem_of_find?_eq_some hliteral
      simp only [literals, List.mem_cons, List.not_mem_nil, or_false] at hmem
      rcases hmem with rfl | rfl | rfl | rfl | rfl | rfl <;> simp [py]
    rw [List.length_drop]
    omega
  next => exact scanNumber_length h

/-- A loop over elements reads something, when its elements do. -/
theorem scanElements_length {α : Type} {element : Scanner α} {refusal missing : PyExc}
    (helement : Reads refusal element) {close fuel : ℕ} {text : PyStr}
    {items : List α} {rest : PyStr}
    (h : scanElements element close missing fuel text = .ok (items, rest)) :
    rest.length < text.length := by
  induction fuel generalizing text items with
  | zero => cases h
  | succ fuel ih =>
      rw [scanElements] at h
      obtain ⟨⟨item, after⟩, hitem, h⟩ := bind_eq_ok.mp h
      have hlength := helement.shorter _ _ _ hitem
      have hblanks := length_skipBlanks_le after
      simp only at h
      split at h
      · cases h
      next c tail htail =>
        rw [htail, List.length_cons] at hblanks
        split_ifs at h with hclose hcomma
        · cases h
          omega
        · obtain ⟨⟨more, last⟩, hmore, h⟩ := bind_eq_ok.mp h
          cases h
          have hrest := ih hmore
          have hskip := length_skipBlanks_le tail
          omega

/-- A loop with more fuel than text reads the same. -/
theorem scanElements_fuel {α : Type} {element : Scanner α} {missing : PyExc}
    (helement : Reads missing element) {close fuel more : ℕ} {text : PyStr}
    (hfuel : text.length ≤ fuel) (hmore : text.length ≤ more) :
    scanElements element close missing fuel text =
      scanElements element close missing more text := by
  induction fuel generalizing more text with
  | zero =>
      rw [List.eq_nil_of_length_eq_zero (Nat.le_zero.mp hfuel)]
      cases more with
      | zero => rfl
      | succ more => rw [scanElements, scanElements, helement.empty, error_bind]
  | succ fuel ih =>
      cases more with
      | zero =>
          rw [List.eq_nil_of_length_eq_zero (Nat.le_zero.mp hmore), scanElements,
            scanElements, helement.empty, error_bind]
      | succ more =>
          rw [scanElements, scanElements]
          refine bind_congr_ok fun ⟨item, rest⟩ hitem => ?_
          have hlength := helement.shorter _ _ _ hitem
          have hblanks := length_skipBlanks_le rest
          cases hrest : skipBlanks rest with
          | nil => simp only [hrest]
          | cons c tail =>
              rw [hrest, List.length_cons] at hblanks
              have hskip := length_skipBlanks_le tail
              have htail : scanElements element close missing fuel (skipBlanks tail) =
                  scanElements element close missing more (skipBlanks tail) :=
                ih (by omega) (by omega)
              simp only [hrest, htail]

theorem scanMember_reads {inner : Scanner PyVal}
    (hinner : Reads expectingValue inner) :
    Reads expectingName (scanMember inner) where
  empty := rfl
  shorter text member rest h := by
    cases text with
    | nil => cases h
    | cons c tail =>
        rw [scanMember] at h
        rw [List.length_cons]
        split_ifs at h with hquote
        obtain ⟨⟨name, after⟩, hname, h⟩ := bind_eq_ok.mp h
        have hlength := scanString_length hname
        have hblanks := length_skipBlanks_le after
        simp only at h
        split at h
        · cases h
        next colon behind hbehind =>
          rw [hbehind, List.length_cons] at hblanks
          split_ifs at h with hcolon
          obtain ⟨⟨value, last⟩, hvalue, h⟩ := bind_eq_ok.mp h
          have hlast : last = rest := (Prod.mk.inj (Except.ok.inj h)).2
          subst hlast
          have hrest := hinner.shorter _ _ _ hvalue
          have hskip := length_skipBlanks_le behind
          omega

theorem scanArray_length {inner : Scanner PyVal}
    (hinner : Reads expectingValue inner) {text : PyStr} {value : PyVal}
    {rest : PyStr} (h : scanArray inner text = .ok (value, rest)) :
    rest.length ≤ text.length := by
  have hblanks := length_skipBlanks_le text
  simp only [scanArray] at h
  split_ifs at h with hclose
  · cases h
    rw [List.length_tail]
    omega
  · obtain ⟨⟨items, last⟩, hitems, h⟩ := bind_eq_ok.mp h
    have hlength := scanElements_length hinner hitems
    have hlast : last = rest := (Prod.mk.inj (Except.ok.inj h)).2
    rw [← hlast]
    omega

theorem scanObject_length {inner : Scanner PyVal}
    (hinner : Reads expectingValue inner) {text : PyStr} {value : PyVal}
    {rest : PyStr} (h : scanObject inner text = .ok (value, rest)) :
    rest.length ≤ text.length := by
  have hblanks := length_skipBlanks_le text
  simp only [scanObject] at h
  split_ifs at h with hclose
  · cases h
    rw [List.length_tail]
    omega
  · obtain ⟨⟨members, last⟩, hmembers, h⟩ := bind_eq_ok.mp h
    have hlength := scanElements_length (scanMember_reads hinner) hmembers
    have hlast : last = rest := (Prod.mk.inj (Except.ok.inj h)).2
    rw [← hlast]
    omega

theorem scanNested_length {nested : Option (Scanner PyVal)} {kind : PyStr}
    {container : Scanner PyVal → Scanner PyVal}
    (hcontainer : ∀ inner ∈ nested, ∀ text value rest,
      container inner text = .ok (value, rest) → rest.length ≤ text.length)
    {text : PyStr} {value : PyVal} {rest : PyStr}
    (h : scanNested nested kind container text = .ok (value, rest)) :
    rest.length ≤ text.length := by
  cases nested with
  | none => cases h
  | some inner => exact hcontainer inner rfl text value rest h

theorem scanWith_reads (interp : Interpreter) {nested : Option (Scanner PyVal)}
    (hnested : ∀ inner ∈ nested, Reads expectingValue inner) :
    Reads expectingValue (scanWith interp nested) where
  empty := rfl
  shorter text value rest h := by
    cases text with
    | nil => cases h
    | cons c tail =>
        rw [scanWith] at h
        split_ifs at h with hquote harray hobject
        · obtain ⟨⟨chars, last⟩, hchars, h⟩ := bind_eq_ok.mp h
          cases h
          exact Nat.lt_succ_of_lt (scanString_length hchars)
        · exact Nat.lt_succ_of_le (scanNested_length (fun inner hmem _ _ _ =>
            scanArray_length (hnested inner hmem)) h)
        · exact Nat.lt_succ_of_le (scanNested_length (fun inner hmem _ _ _ =>
            scanObject_length (hnested inner hmem)) h)
        · exact scanScalar_length h

theorem scanValue_reads (interp : Interpreter) (depth : ℕ) :
    Reads expectingValue (scanValue interp depth) := by
  induction depth with
  | zero => exact scanWith_reads interp fun inner hmem => by cases hmem
  | succ depth ih =>
      refine scanWith_reads interp fun inner hmem => ?_
      cases hmem
      exact ih

/-- An array's loop is given fuel enough: more changes nothing. -/
theorem scanItems_fuel (interp : Interpreter) (depth : ℕ) {fuel : ℕ} {text : PyStr}
    (hfuel : text.length ≤ fuel) :
    scanItems (scanValue interp depth) fuel text =
      scanItems (scanValue interp depth) text.length text :=
  scanElements_fuel (scanValue_reads interp depth) hfuel le_rfl

theorem scanMembers_fuel (interp : Interpreter) (depth : ℕ) {fuel : ℕ}
    {text : PyStr} (hfuel : text.length ≤ fuel) :
    scanMembers (scanValue interp depth) fuel text =
      scanMembers (scanValue interp depth) text.length text :=
  scanElements_fuel (scanMember_reads (scanValue_reads interp depth)) hfuel le_rfl

/-- Every float in a value, at any depth, is one. -/
inductive FloatsInRange : PyVal → Prop
  | pyNone : FloatsInRange .pyNone
  | bool (b : Bool) : FloatsInRange (.bool b)
  | int (n : ℤ) : FloatsInRange (.int n)
  | float {value : PyNum} (repr : PyStr) (h : value.InRange) :
      FloatsInRange (.float value repr)
  | str (s : PyStr) : FloatsInRange (.str s)
  | list {items : List PyVal} (h : ∀ item ∈ items, FloatsInRange item) :
      FloatsInRange (.list items)
  | dict {entries : PyDict} (h : ∀ entry ∈ entries, FloatsInRange entry.2) :
      FloatsInRange (.dict entries)

/-- What a scanner reads has a property. -/
def Yields {α : Type} (property : α → Prop) (scanner : Scanner α) : Prop :=
  ∀ text value rest, scanner text = .ok (value, rest) → property value

theorem floatLiteral_inRange (interp : Interpreter) (negative : Bool)
    (whole fraction : PyStr) (exponent : ℤ) :
    FloatsInRange (floatLiteral interp negative whole fraction exponent) :=
  .float _ (toFloat_inRange _)

theorem scanScalar_inRange (interp : Interpreter) :
    Yields FloatsInRange (scanScalar interp) := by
  intro text value rest h
  rw [scanScalar] at h
  split at h
  next literal hliteral =>
    cases h
    have hmem := List.mem_of_find?_eq_some hliteral
    simp only [literals, List.mem_cons, List.not_mem_nil, or_false] at hmem
    rcases hmem with rfl | rfl | rfl | rfl | rfl | rfl
    · exact .pyNone
    · exact .bool _
    · exact .bool _
    · exact .float _ fun q hq => by cases hq
    · exact .float _ fun q hq => by cases hq
    · exact .float _ fun q hq => by cases hq
  next =>
    rw [scanNumber] at h
    obtain ⟨_, h⟩ := guard_eq_ok.mp h
    split at h
    · cases h
      exact floatLiteral_inRange ..
    · split_ifs at h
      · obtain ⟨number, hnumber, h⟩ := bind_eq_ok.mp h
        cases h
        obtain ⟨_, hnumber⟩ := guard_eq_ok.mp hnumber
        cases hnumber
        exact .int _
      · cases h
        exact floatLiteral_inRange ..

theorem scanElements_yields {α : Type} {element : Scanner α} {property : α → Prop}
    (helement : Yields property element) (close : ℕ) (missing : PyExc) (fuel : ℕ) :
    Yields (fun items => ∀ item ∈ items, property item)
      (scanElements element close missing fuel) := by
  intro text items rest h
  induction fuel generalizing text items with
  | zero => cases h
  | succ fuel ih =>
      rw [scanElements] at h
      obtain ⟨⟨item, after⟩, hitem, h⟩ := bind_eq_ok.mp h
      have hfirst := helement _ _ _ hitem
      simp only at h
      split at h
      · cases h
      · split_ifs at h with hclose hcomma
        · cases h
          exact List.forall_mem_singleton.mpr hfirst
        · obtain ⟨⟨more, last⟩, hmore, h⟩ := bind_eq_ok.mp h
          cases h
          exact List.forall_mem_cons.mpr ⟨hfirst, ih _ _ hmore⟩

theorem scanMember_yields {inner : Scanner PyVal} {property : PyVal → Prop}
    (hinner : Yields property inner) :
    Yields (fun member => property member.2) (scanMember inner) := by
  intro text member rest h
  cases text with
  | nil => cases h
  | cons c tail =>
      rw [scanMember] at h
      split_ifs at h with hquote
      obtain ⟨⟨name, after⟩, _, h⟩ := bind_eq_ok.mp h
      simp only at h
      split at h
      · cases h
      · split_ifs at h with hcolon
        obtain ⟨⟨value, last⟩, hvalue, h⟩ := bind_eq_ok.mp h
        cases h
        exact hinner _ _ _ hvalue

theorem setEntry_inRange {entries : PyDict} {name : PyStr} {value : PyVal}
    (h : ∀ entry ∈ entries, FloatsInRange entry.2) (hvalue : FloatsInRange value) :
    ∀ entry ∈ setEntry entries name value, FloatsInRange entry.2 := by
  intro entry hmem
  rw [setEntry] at hmem
  split_ifs at hmem
  · obtain ⟨old, hold, rfl⟩ := List.mem_map.mp hmem
    split
    · split_ifs
      · exact hvalue
      · exact h old hold
    · exact h old hold
  · rcases List.mem_append.mp hmem with hold | hnew
    · exact h entry hold
    · rw [List.mem_singleton.mp hnew]
      exact hvalue

theorem foldl_setEntry_inRange {members : List (PyStr × PyVal)}
    (h : ∀ member ∈ members, FloatsInRange member.2) {entries : PyDict}
    (hentries : ∀ entry ∈ entries, FloatsInRange entry.2) :
    ∀ entry ∈ members.foldl
      (fun entries member => setEntry entries member.1 member.2) entries,
        FloatsInRange entry.2 := by
  induction members generalizing entries with
  | nil => exact hentries
  | cons member rest ih =>
      obtain ⟨hfirst, hrest⟩ := List.forall_mem_cons.mp h
      exact ih hrest (setEntry_inRange hentries hfirst)

theorem scanWith_inRange (interp : Interpreter) {nested : Option (Scanner PyVal)}
    (hnested : ∀ inner ∈ nested, Yields FloatsInRange inner) :
    Yields FloatsInRange (scanWith interp nested) := by
  intro text value rest h
  cases text with
  | nil => cases h
  | cons c tail =>
      rw [scanWith] at h
      split_ifs at h with hquote harray hobject
      · obtain ⟨⟨chars, last⟩, _, h⟩ := bind_eq_ok.mp h
        cases h
        exact .str _
      · cases nested with
        | none => cases h
        | some inner =>
            simp only [scanNested, scanArray] at h
            split_ifs at h
            · cases h
              exact .list fun item hitem => by cases hitem
            · obtain ⟨⟨items, last⟩, hitems, h⟩ := bind_eq_ok.mp h
              cases h
              exact .list (scanElements_yields (hnested inner rfl) _ _ _ _ _ _ hitems)
      · cases nested with
        | none => cases h
        | some inner =>
            simp only [scanNested, scanObject] at h
            split_ifs at h
            · cases h
              exact .dict fun entry hentry => by cases hentry
            · obtain ⟨⟨members, last⟩, hmembers, h⟩ := bind_eq_ok.mp h
              cases h
              exact .dict (foldl_setEntry_inRange
                (scanElements_yields (scanMember_yields (hnested inner rfl)) _ _ _
                  _ _ _ hmembers)
                fun entry hentry => by cases hentry)
      · exact scanScalar_inRange interp _ _ _ h

theorem scanValue_inRange (interp : Interpreter) (depth : ℕ) :
    Yields FloatsInRange (scanValue interp depth) := by
  induction depth with
  | zero => exact scanWith_inRange interp fun inner hmem => by cases hmem
  | succ depth ih =>
      refine scanWith_inRange interp fun inner hmem => ?_
      cases hmem
      exact ih

/-- What `json.loads` returns holds floats only within their range. -/
theorem loads_inRange {interp : Interpreter} {text : PyStr} {value : PyVal}
    (h : loads interp text = .ok value) : FloatsInRange value := by
  obtain ⟨_, h⟩ := guard_eq_ok.mp h
  obtain ⟨⟨found, rest⟩, hscan, h⟩ := bind_eq_ok.mp h
  simp only at h
  split_ifs at h
  cases h
  exact scanValue_inRange interp _ _ _ _ hscan

/-- The reader raises nothing else. -/
def ReadExc (exc : PyExc) : Prop :=
  exc.type = .jsonDecodeError ∨ exc.type = .valueError ∨
    exc.type = .recursionError

theorem readExc_decode (message : PyStr) : ReadExc (decodeExc message) := Or.inl rfl

section Raises

variable {α : Type}

theorem scanLowSurrogate_raises (text : PyStr) :
    RaisesOnly ReadExc (scanLowSurrogate text) := by
  match text with
  | slash :: u :: rest =>
      rw [scanLowSurrogate]
      split_ifs
      · split
        · exact .error (readExc_decode _)
        · split_ifs <;> exact .ok _
      · exact .ok _
  | [] | [_] => exact .ok _

theorem scanEscape_raises (text : PyStr) : RaisesOnly ReadExc (scanEscape text) := by
  cases text with
  | nil => exact .error (readExc_decode _)
  | cons c rest =>
      rw [scanEscape]
      split_ifs
      · split
        · exact .error (readExc_decode _)
        · split_ifs
          · apply (scanLowSurrogate_raises _).bind
            intro low _
            cases low <;> exact .ok _
          · exact .ok _
      · split
        · exact .ok _
        · exact .error (readExc_decode _)

theorem scanString_raises (fuel : ℕ) (text : PyStr) :
    RaisesOnly ReadExc (scanString fuel text) := by
  induction fuel generalizing text with
  | zero => exact .error (readExc_decode _)
  | succ fuel ih =>
      cases text with
      | nil => exact .error (readExc_decode _)
      | cons c rest =>
          rw [scanString]
          split_ifs
          · exact .ok _
          · apply (scanEscape_raises rest).bind
            intro read _
            exact (ih read.2).bind fun _ _ => .ok _
          · exact .error (readExc_decode _)
          · exact (ih rest).bind fun _ _ => .ok _

theorem intLiteral_raises (negative : Bool) (digits : PyStr) :
    RaisesOnly ReadExc (intLiteral negative digits) := by
  rw [intLiteral]
  split
  · exact .error (Or.inr (Or.inl rfl))
  · exact .ok _

theorem scanNumber_raises (interp : Interpreter) (text : PyStr) :
    RaisesOnly ReadExc (scanNumber interp text) := by
  simp only [scanNumber]
  split
  · exact .error (readExc_decode _)
  · split
    · exact .ok _
    · split
      · exact (intLiteral_raises _ _).bind fun _ _ => .ok _
      · exact .ok _

theorem scanScalar_raises (interp : Interpreter) (text : PyStr) :
    RaisesOnly ReadExc (scanScalar interp text) := by
  rw [scanScalar]
  split
  · exact .ok _
  · exact scanNumber_raises interp text

theorem scanElements_raises {element : Scanner α} {close : ℕ} {message : PyStr}
    (helement : ∀ text, RaisesOnly ReadExc (element text)) (fuel : ℕ) (text : PyStr) :
    RaisesOnly ReadExc (scanElements element close (decodeExc message) fuel text) := by
  induction fuel generalizing text with
  | zero => exact .error (readExc_decode _)
  | succ fuel ih =>
      rw [scanElements]
      apply (helement text).bind
      rintro ⟨item, rest⟩ _
      dsimp only
      split
      · exact .error (readExc_decode _)
      · split_ifs
        · exact .ok _
        · exact (ih _).bind fun _ _ => .ok _
        · exact .error (readExc_decode _)

variable {inner : Scanner PyVal}

theorem scanArray_raises (hinner : ∀ text, RaisesOnly ReadExc (inner text))
    (text : PyStr) : RaisesOnly ReadExc (scanArray inner text) := by
  simp only [scanArray]
  split_ifs
  · exact .ok _
  · exact (scanElements_raises hinner _ _).bind fun _ _ => .ok _

theorem scanMember_raises (hinner : ∀ text, RaisesOnly ReadExc (inner text))
    (text : PyStr) : RaisesOnly ReadExc (scanMember inner text) := by
  cases text with
  | nil => exact .error (readExc_decode _)
  | cons c rest =>
      simp only [scanMember]
      split_ifs
      · apply (scanString_raises _ rest).bind
        intro name _
        split
        · exact .error (readExc_decode _)
        · split_ifs
          · exact (hinner _).bind fun _ _ => .ok _
          · exact .error (readExc_decode _)
      · exact .error (readExc_decode _)

theorem scanObject_raises (hinner : ∀ text, RaisesOnly ReadExc (inner text))
    (text : PyStr) : RaisesOnly ReadExc (scanObject inner text) := by
  simp only [scanObject]
  split_ifs
  · exact .ok _
  · exact (scanElements_raises (scanMember_raises hinner) _ _).bind
      fun _ _ => .ok _

end Raises

/-- One level raises what the level below does, or that there is none. -/
theorem scanWith_raises {interp : Interpreter} {nested : Option (Scanner PyVal)}
    (hnested : ∀ inner, nested = some inner → ∀ text, RaisesOnly ReadExc (inner text))
    (text : PyStr) : RaisesOnly ReadExc (scanWith interp nested text) := by
  have hcontainer : ∀ kind container rest,
      (∀ inner, (∀ text, RaisesOnly ReadExc (inner text)) →
        RaisesOnly ReadExc (container inner rest)) →
      RaisesOnly ReadExc (scanNested nested kind container rest) := by
    intro kind container rest hcontainer
    cases nested with
    | none => exact .error (Or.inr (Or.inr rfl))
    | some inner => exact hcontainer inner (hnested inner rfl)
  cases text with
  | nil => exact .error (readExc_decode _)
  | cons c rest =>
      rw [scanWith]
      split_ifs
      · exact (scanString_raises _ rest).bind fun _ _ => .ok _
      · exact hcontainer _ _ rest fun _ hinner => scanArray_raises hinner rest
      · exact hcontainer _ _ rest fun _ hinner => scanObject_raises hinner rest
      · exact scanScalar_raises interp _

theorem scanValue_raises (interp : Interpreter) (depth : ℕ) (text : PyStr) :
    RaisesOnly ReadExc (scanValue interp depth text) := by
  induction depth generalizing text with
  | zero => exact scanWith_raises (fun _ h => by cases h) text
  | succ depth ih =>
      apply scanWith_raises
      intro inner h
      cases h
      exact ih

theorem loads_raises (interp : Interpreter) (text : PyStr) :
    RaisesOnly ReadExc (loads interp text) := by
  rw [loads]
  split_ifs
  · exact .error (readExc_decode _)
  · apply (scanValue_raises interp interp.depth _).bind
    intro read _
    dsimp only
    split_ifs
    · exact .ok _
    · exact .error (readExc_decode _)

end PyJson

end QwedA2A
