/-
The finance guard against exact arithmetic: what a true claim is, and when the
guard's rounded total decides it.
-/
import QwedA2A.Finance

namespace QwedA2A

open DecimalRounding

/-- The text of the value reads as this finite decimal. -/
def ParsesAs (value : PyVal) (number : Decimal) : Prop :=
  decimalOf value = .ok (.finite number)

/-- A mapping with an amount and a quantity, 1 when it has none. -/
def IsLineItem (entry : PyVal) (item : LineItem) : Prop :=
  ∃ entries amount, entry = .dict entries ∧
    dictGet entries (py "amount") = some amount ∧ ParsesAs amount item.amount ∧
      ParsesAs ((dictGet entries (py "quantity")).getD (.int 1)) item.quantity

/-- The payload states this claimed total over these line items. -/
def IsTransaction (payload : PyDict) (claimed : Decimal)
    (items : List LineItem) : Prop :=
  ∃ data claim entries, dictGet payload (py "data") = some (.dict data) ∧
    dictGet data (py "claimed_total") = some claim ∧ ParsesAs claim claimed ∧
      0 ≤ claimed.value ∧
    dictGet data (py "line_items") = some (.list entries) ∧ entries ≠ [] ∧
      List.Forall₂ IsLineItem entries items

def exactTotal (items : List LineItem) : ℚ :=
  (items.map fun item => item.amount.value * item.quantity.value).sum

def toCents (x : ℚ) : ℚ := cents x / 100

/-- Two amounts agree, rounded to cents, up to one cent. -/
def WithinCent (x y : ℚ) : Prop := |toCents x - toCents y| ≤ 1 / 100

/-- The payload is complete and its claimed total is the exact total, up to one
cent. -/
def ClaimHolds (payload : PyDict) : Prop :=
  ∃ claimed items, IsTransaction payload claimed items ∧
    WithinCent (exactTotal items) claimed.value

theorem withinCent_iff {x y : ℚ} : WithinCent x y ↔ |cents x - cents y| ≤ 1 := by
  rw [WithinCent, toCents, toCents, ← sub_div, abs_div, abs_of_pos (by norm_num :
    (0 : ℚ) < 100), div_le_div_iff_of_pos_right (by norm_num)]
  exact_mod_cast Iff.rfl

theorem not_isNone_of_parsesAs {value : PyVal} {number : Decimal}
    (h : ParsesAs value number) : value.isNone = false := by
  cases value with
  | pyNone =>
      have hnone : decimalOf .pyNone = .error invalidOperationExc := by rfl
      rw [ParsesAs, hnone] at h
      cases h
  | _ => rfl

/-- A lookup that does not give its default found an entry. -/
theorem eq_some_of_getD {value : Option PyVal} {default found : PyVal}
    (h : value.getD default = found) (hne : found ≠ default) :
    value = some found := by
  cases value with
  | none => exact absurd h.symm hne
  | some entry => exact congrArg some h

theorem getD_pyNone_eq {value : Option PyVal}
    (h : (value.getD .pyNone).isNone = false) : ∃ found, value = some found :=
  ⟨_, eq_some_of_getD rfl fun hnone => by rw [hnone] at h; cases h⟩

theorem toFinite_eq_some {value : PyDecimal} {number : Decimal} :
    value.toFinite = some number ↔ value = .finite number := by
  cases value <;> simp [PyDecimal.toFinite]

theorem validateLineItem_ok_iff {entry : PyVal} {item : LineItem} :
    validateLineItem entry = .ok item ↔ IsLineItem entry item := by
  constructor
  · intro h
    cases entry with
    | dict entries =>
        rw [validateLineItem] at h
        obtain ⟨hamount, h⟩ := guard_eq_ok.mp h
        obtain ⟨_, h⟩ := guard_eq_ok.mp h
        split at h
        next decAmount decQuantity hdecAmount hdecQuantity =>
          split at h
          next amount quantity hfinite hfinite' =>
            split_ifs at h with hnonneg
            cases h
            obtain ⟨found, hfound⟩ := getD_pyNone_eq (by simpa using hamount)
            rw [hfound] at hdecAmount
            rw [toFinite_eq_some.mp hfinite] at hdecAmount
            rw [toFinite_eq_some.mp hfinite'] at hdecQuantity
            exact ⟨entries, found, rfl, hfound, hdecAmount, hdecQuantity⟩
          next => cases h
        next => cases h
    | _ => cases h
  · rintro ⟨entries, amount, rfl, hamount, hparses, hquantity⟩
    simp only [validateLineItem, hamount, Option.getD_some,
      not_isNone_of_parsesAs hparses, not_isNone_of_parsesAs hquantity,
      show decimalOf amount = _ from hparses,
      show decimalOf _ = _ from hquantity, PyDecimal.toFinite,
      Bool.false_eq_true, if_false]
    rw [dif_pos ⟨item.amountNonneg, item.quantityNonneg⟩]

theorem validateClaimedTotal_ok_iff {claim : PyVal}
    {claimed : {number : Decimal // 0 ≤ number.value}} :
    validateClaimedTotal claim = .ok claimed ↔ ParsesAs claim claimed.1 := by
  constructor
  · intro h
    rw [validateClaimedTotal] at h
    split at h
    next => cases h
    next decClaimed hclaim =>
      split at h
      next => cases h
      next number hfinite =>
        split_ifs at h with hnonneg
        cases h
        rw [toFinite_eq_some.mp hfinite] at hclaim
        exact hclaim
  · intro h
    simp only [validateClaimedTotal, show decimalOf claim = _ from h,
      PyDecimal.toFinite]
    rw [dif_pos claimed.2]

theorem validateFinancialPayload_ok_iff {payload : PyDict} {claimed : Decimal}
    {items : List LineItem} :
    (∃ transaction, validateFinancialPayload payload = .ok transaction ∧
      transaction.claimedTotal = claimed ∧ transaction.lineItems = items) ↔
      IsTransaction payload claimed items := by
  constructor
  · rintro ⟨transaction, h, rfl, rfl⟩
    rw [validateFinancialPayload] at h
    split at h
    next data hdata =>
      split at h
      next entries hentries =>
        obtain ⟨hclaim, h⟩ := guard_eq_ok.mp h
        obtain ⟨claim, hclaimed⟩ := getD_pyNone_eq (by simpa using hclaim)
        obtain ⟨total, htotal, h⟩ := bind_eq_ok.mp h
        obtain ⟨hnonempty, h⟩ := guard_eq_ok.mp h
        obtain ⟨items, hitems, h⟩ := bind_eq_ok.mp h
        cases h
        rw [hclaimed] at htotal
        have hdata' : dictGet payload (py "data") = some (.dict data) :=
          eq_some_of_getD hdata fun h => by
            cases h
            cases hclaimed
        have hentries' : dictGet data (py "line_items") = some (.list entries) :=
          eq_some_of_getD hentries fun h => by
            cases h
            exact absurd rfl hnonempty
        exact ⟨data, claim, entries, hdata', hclaimed,
          validateClaimedTotal_ok_iff.mp htotal, total.2, hentries', hnonempty,
          (mapM_ok_iff.mp hitems).imp fun _ _ hitem =>
            validateLineItem_ok_iff.mp hitem⟩
      next => cases h
    next => cases h
  · rintro ⟨data, claim, entries, hdata, hclaim, hparses, hnonneg, hentries,
      hnonempty, hitems⟩
    have hmapped : entries.mapM validateLineItem = .ok items :=
      mapM_ok_iff.mpr (hitems.imp fun _ _ hitem =>
        validateLineItem_ok_iff.mpr hitem)
    have htotal : validateClaimedTotal claim = .ok ⟨claimed, hnonneg⟩ :=
      validateClaimedTotal_ok_iff.mpr hparses
    refine ⟨⟨claimed, claimText claim, items, hnonneg⟩, ?_, rfl, rfl⟩
    simp only [validateFinancialPayload, hdata, hclaim, hentries,
      Option.getD_some, not_isNone_of_parsesAs hparses, htotal, ok_bind,
      Bool.false_eq_true, if_false, hnonempty, hmapped]
    rfl

/-- Every exact product and every exact running total fits the context. -/
def FitsContext (total : ℚ) : List LineItem → Prop
  | [] => True
  | item :: rest =>
      defaultContext.Fits (item.amount.value * item.quantity.value) ∧
        defaultContext.Fits (total + item.amount.value * item.quantity.value) ∧
          FitsContext (total + item.amount.value * item.quantity.value) rest

theorem exactTotal_cons (item : LineItem) (rest : List LineItem) :
    exactTotal (item :: rest) =
      item.amount.value * item.quantity.value + exactTotal rest := by
  simp [exactTotal]

/-- The accumulation rounds no product and no sum. -/
def LosesNothing (total : Decimal) : List LineItem → Prop
  | [] => True
  | item :: rest =>
      ∃ product next, decimalMul item.amount item.quantity = .ok product ∧
        decimalAdd total product = .ok next ∧
        product.value = item.amount.value * item.quantity.value ∧
        next.value = total.value + product.value ∧ LosesNothing next rest

/-- The exact values fit the context exactly when none of them is rounded. -/
theorem fitsContext_iff_losesNothing {items : List LineItem}
    {start total : Decimal} (h : runningTotal start items = .ok total) :
    FitsContext start.value items ↔ LosesNothing start items := by
  induction items generalizing start with
  | nil => exact Iff.rfl
  | cons item rest ih =>
      rw [runningTotal] at h
      obtain ⟨product, hmul, h⟩ := bind_eq_ok.mp h
      obtain ⟨next, hadd, h⟩ := bind_eq_ok.mp h
      rw [FitsContext, LosesNothing]
      constructor
      · rintro ⟨hproduct, hsum, hrest⟩
        have hexact := (decimalMul_value_iff hmul).mpr hproduct
        rw [← hexact] at hsum hrest
        have hnext := (decimalAdd_value_iff hadd).mpr hsum
        rw [← hnext] at hrest
        exact ⟨product, next, hmul, hadd, hexact, hnext, (ih h).mp hrest⟩
      · rintro ⟨product', next', hmul', hadd', hexact, hnext, hrest⟩
        rw [hmul] at hmul'
        cases hmul'
        rw [hadd] at hadd'
        cases hadd'
        rw [← hexact]
        refine ⟨?_, (decimalAdd_value_iff hadd).mp hnext, ?_⟩
        · rw [hexact]
          exact (decimalMul_value_iff hmul).mp hexact
        · rw [← hnext]
          exact (ih h).mpr hrest

/-- An accumulation that rounds nothing computes the exact total. -/
theorem LosesNothing.value {items : List LineItem} {start total : Decimal}
    (hexact : LosesNothing start items)
    (h : runningTotal start items = .ok total) :
    total.value = start.value + exactTotal items := by
  induction items generalizing start with
  | nil =>
      cases h
      simp [exactTotal]
  | cons item rest ih =>
      obtain ⟨product, next, hmul, hadd, hproduct, hnext, hrest⟩ := hexact
      rw [runningTotal, hmul, ok_bind, hadd, ok_bind] at h
      rw [ih hrest h, hnext, hproduct, exactTotal_cons, add_assoc]

theorem runningTotal_nonneg {items : List LineItem} {start total : Decimal}
    (h : runningTotal start items = .ok total) (hstart : 0 ≤ start.value) :
    0 ≤ total.value := by
  induction items generalizing start with
  | nil =>
      cases h
      exact hstart
  | cons item rest ih =>
      rw [runningTotal] at h
      obtain ⟨product, hmul, h⟩ := bind_eq_ok.mp h
      obtain ⟨next, hadd, h⟩ := bind_eq_ok.mp h
      exact ih h (decimalAdd_nonneg hadd hstart
        (decimalMul_nonneg hmul item.amountNonneg item.quantityNonneg))

theorem decimalSub_cents {a b : ℤ} {difference : Decimal} (ha : 0 ≤ a) (hb : 0 ≤ b)
    (ha' : a < maxCents) (hb' : b < maxCents)
    (h : decimalSub ⟨a, -2⟩ ⟨b, -2⟩ = .ok difference) :
    difference.abs.value = |((a - b : ℤ) : ℚ)| / 100 := by
  have hexact : (Decimal.addExact ⟨a, -2⟩ (Decimal.neg ⟨b, -2⟩)).value =
      ((a - b : ℤ) : ℚ) * 10 ^ (-2 : ℤ) := by
    rw [Decimal.addExact_value, Decimal.neg_value, Decimal.value, Decimal.value]
    push_cast
    ring
  have hfits : defaultContext.Fits
      (Decimal.addExact ⟨a, -2⟩ (Decimal.neg ⟨b, -2⟩)).value := by
    refine ⟨a - b, -2, hexact, ?_, by decide⟩
    rw [maxCents] at ha' hb'
    change (a - b).natAbs < 10 ^ 28
    omega
  rw [Decimal.abs_value, Context.fix_value_of_fits (contextResult_ok h) hfits,
    hexact, abs_mul]
  norm_num
  ring

/-- A refused payload is reported as unverifiable, whatever was wrong with it. -/
theorem validateLineItem_error {entry : PyVal} {result : EngineResult}
    (h : validateLineItem entry = .error result) :
    ∃ reason, result = financeUnverifiable reason := by
  cases entry with
  | dict entries =>
      rw [validateLineItem] at h
      rcases guard_eq_error.mp h with ⟨_, rfl⟩ | ⟨_, h⟩
      · exact ⟨_, rfl⟩
      rcases guard_eq_error.mp h with ⟨_, rfl⟩ | ⟨_, h⟩
      · exact ⟨_, rfl⟩
      split at h
      next =>
        split at h
        next =>
          split_ifs at h with hnonneg
          cases h
          exact ⟨_, rfl⟩
        next => cases h; exact ⟨_, rfl⟩
      next => cases h; exact ⟨_, rfl⟩
  | _ => cases h; exact ⟨_, rfl⟩

theorem validateClaimedTotal_error {claim : PyVal} {result : EngineResult}
    (h : validateClaimedTotal claim = .error result) :
    ∃ reason, result = financeUnverifiable reason := by
  rw [validateClaimedTotal] at h
  split at h
  next => cases h; exact ⟨_, rfl⟩
  next decClaimed _ =>
    split at h
    next => cases h; exact ⟨_, rfl⟩
    next number _ =>
      split_ifs at h with hnonneg
      cases h
      exact ⟨_, rfl⟩

theorem validateFinancialPayload_error {payload : PyDict} {result : EngineResult}
    (h : validateFinancialPayload payload = .error result) :
    ∃ reason, result = financeUnverifiable reason := by
  rw [validateFinancialPayload] at h
  split at h
  next data _ =>
    split at h
    next entries _ =>
      rcases guard_eq_error.mp h with ⟨_, rfl⟩ | ⟨_, h⟩
      · exact ⟨_, rfl⟩
      rcases bind_eq_error.mp h with hclaim | ⟨total, _, h⟩
      · exact validateClaimedTotal_error hclaim
      rcases guard_eq_error.mp h with ⟨_, rfl⟩ | ⟨_, h⟩
      · exact ⟨_, rfl⟩
      rcases bind_eq_error.mp h with hitems | ⟨items, _, h⟩
      · obtain ⟨entry, _, hentry⟩ := mapM_error hitems
        exact validateLineItem_error hentry
      · cases h
    next => cases h; exact ⟨_, rfl⟩
  next => cases h; exact ⟨_, rfl⟩

/-- What the guard decides on a complete payload: the rounded total, which is
less than 10^26, for a claim whose cents have at most 28 digits. -/
theorem verifyTransaction_verified_iff {payload : PyDict} {result : EngineResult}
    {transaction : Transaction}
    (hvalid : validateFinancialPayload payload = .ok transaction)
    (h : verifyFinancial payload = .ok result) :
    ∃ total, runningTotal ⟨0, 0⟩ transaction.lineItems = .ok total ∧
      cents total.value < maxCents ∧
      (result.verified = true ↔
        cents transaction.claimedTotal.value < maxCents ∧
          WithinCent total.value transaction.claimedTotal.value) := by
  rw [verifyFinancial, hvalid] at h
  obtain ⟨total, htotal, h⟩ := bind_eq_ok.mp h
  obtain ⟨computed, hcomputed, h⟩ := bind_eq_ok.mp h
  have hnonneg := runningTotal_nonneg htotal (by simp [Decimal.value])
  obtain ⟨rfl, hsmall⟩ := (quantizeCents_ok_iff hnonneg).mp hcomputed
  refine ⟨total, htotal, hsmall, ?_⟩
  have hcents : ∀ {x : ℚ}, 0 ≤ x → 0 ≤ cents x := fun hx =>
    Int.floor_nonneg.mpr (by positivity)
  cases hclaimed : quantizeCents transaction.claimedTotal with
  | error exc =>
      rw [hclaimed] at h
      cases h
      have hlarge : ¬ cents transaction.claimedTotal.value < maxCents := by
        intro hfits
        rw [(quantizeCents_ok_iff transaction.claimedNonneg).mpr ⟨rfl, hfits⟩]
          at hclaimed
        cases hclaimed
      simp [malformedClaim, financeUnverifiable, hlarge]
  | ok claimed =>
      obtain ⟨rfl, hsmall'⟩ := (quantizeCents_ok_iff transaction.claimedNonneg).mp
        hclaimed
      rw [hclaimed] at h
      obtain ⟨difference, hdifference, h⟩ := bind_eq_ok.mp h
      have hvalue := decimalSub_cents (hcents hnonneg)
        (hcents transaction.claimedNonneg) hsmall hsmall' hdifference
      have hwithin : WithinCent total.value transaction.claimedTotal.value ↔
          ¬ tolerance.value < difference.abs.value := by
        have htolerance : tolerance.value = 1 / 100 := by
          norm_num [tolerance, Decimal.value]
        rw [withinCent_iff, hvalue, htolerance, not_lt,
          div_le_div_iff_of_pos_right (by norm_num)]
        exact_mod_cast Iff.rfl
      rw [hwithin]
      split at h
      next hfar =>
        cases h
        simp [hfar]
      next hnear =>
        cases h
        simp [hnear, hsmall']

theorem isTransaction_unique {payload : PyDict} {transaction : Transaction}
    (hvalid : validateFinancialPayload payload = .ok transaction)
    {claimed : Decimal} {items : List LineItem}
    (hread : IsTransaction payload claimed items) :
    transaction.claimedTotal = claimed ∧ transaction.lineItems = items := by
  obtain ⟨found, hfound, hclaimed, hitems⟩ :=
    validateFinancialPayload_ok_iff.mpr hread
  rw [hvalid] at hfound
  cases hfound
  exact ⟨hclaimed, hitems⟩

/-- Rounding each product and each running total to the context, and refusing a
claim of more than 28 digits of cents, leaves the decision where exact arithmetic
has it. -/
def DecidesExactly (payload : PyDict) : Prop :=
  ∀ claimed items total, IsTransaction payload claimed items →
    runningTotal ⟨0, 0⟩ items = .ok total →
      ((cents claimed.value < maxCents ∧ WithinCent total.value claimed.value) ↔
        WithinCent (exactTotal items) claimed.value)

/-- No exact product or running total has more digits than the context holds, and
no claim of 10^26 meets a total one cent below it. -/
def WithinPrecision (payload : PyDict) : Prop :=
  ∀ claimed items, IsTransaction payload claimed items →
    FitsContext 0 items ∧
      ¬ (cents (exactTotal items) = maxCents - 1 ∧ cents claimed.value = maxCents)

theorem verified_iff_claimHolds_iff {payload : PyDict} {result : EngineResult}
    (h : verifyFinancial payload = .ok result) :
    (result.verified = true ↔ ClaimHolds payload) ↔ DecidesExactly payload := by
  cases hvalid : validateFinancialPayload payload with
  | error refused =>
      rw [verifyFinancial, hvalid] at h
      cases h
      obtain ⟨reason, rfl⟩ := validateFinancialPayload_error hvalid
      have hnone : ∀ claimed items, ¬ IsTransaction payload claimed items := by
        intro claimed items hread
        obtain ⟨transaction, hok, _⟩ := validateFinancialPayload_ok_iff.mpr hread
        rw [hvalid] at hok
        cases hok
      have hfalse : ¬ ClaimHolds payload := fun ⟨claimed, items, hread, _⟩ =>
        hnone claimed items hread
      have hdecides : DecidesExactly payload := fun claimed items _ hread _ =>
        absurd hread (hnone claimed items)
      simp [financeUnverifiable, hfalse, hdecides]
  | ok transaction =>
      obtain ⟨total, htotal, _, hverified⟩ :=
        verifyTransaction_verified_iff hvalid h
      have hread := validateFinancialPayload_ok_iff.mp
        ⟨transaction, hvalid, rfl, rfl⟩
      have hholds : ClaimHolds payload ↔ WithinCent
          (exactTotal transaction.lineItems) transaction.claimedTotal.value := by
        constructor
        · rintro ⟨claimed, items, hother, hwithin⟩
          obtain ⟨rfl, rfl⟩ := isTransaction_unique hvalid hother
          exact hwithin
        · exact fun hwithin => ⟨_, _, hread, hwithin⟩
      rw [hverified, hholds]
      constructor
      · intro hagree claimed items found hother hfound
        obtain ⟨rfl, rfl⟩ := isTransaction_unique hvalid hother
        rw [htotal] at hfound
        cases hfound
        exact hagree
      · exact fun hdecides => hdecides _ _ _ hread htotal

theorem decidesExactly_of_withinPrecision {payload : PyDict} {result : EngineResult}
    (h : verifyFinancial payload = .ok result) (hfits : WithinPrecision payload) :
    DecidesExactly payload := by
  intro claimed items total hread htotal
  obtain ⟨transaction, hvalid, rfl, rfl⟩ :=
    validateFinancialPayload_ok_iff.mpr hread
  obtain ⟨hcontext, hcorner⟩ := hfits _ _ hread
  obtain ⟨found, hfound, hsmall, _⟩ := verifyTransaction_verified_iff hvalid h
  rw [htotal] at hfound
  cases hfound
  have hexact : total.value = exactTotal transaction.lineItems := by
    have hstart : (Decimal.mk 0 0).value = 0 := by simp [Decimal.value]
    have hlossless := (fitsContext_iff_losesNothing htotal).mp (hstart ▸ hcontext)
    rw [hlossless.value htotal, hstart, zero_add]
  rw [hexact] at hsmall ⊢
  refine ⟨fun hboth => hboth.2, fun hwithin => ⟨?_, hwithin⟩⟩
  rw [withinCent_iff, abs_le] at hwithin
  omega

/-- The line items of the one payload stand in the other in some order, under the same
claimed total. -/
def Reordered (payload payload' : PyDict) : Prop :=
  ∃ data data' entries entries',
    dictGet payload (py "data") = some (.dict data) ∧
      dictGet payload' (py "data") = some (.dict data') ∧
      dictGet data (py "claimed_total") = dictGet data' (py "claimed_total") ∧
      dictGet data (py "line_items") = some (.list entries) ∧
      dictGet data' (py "line_items") = some (.list entries') ∧ entries.Perm entries'

theorem Reordered.symm {payload payload' : PyDict} (h : Reordered payload payload') :
    Reordered payload' payload := by
  obtain ⟨data, data', entries, entries', hdata, hdata', hclaim, hentries, hentries',
    hperm⟩ := h
  exact ⟨data', data, entries', entries, hdata', hdata, hclaim.symm, hentries', hentries,
    hperm.symm⟩

theorem exactTotal_perm {items items' : List LineItem} (h : items.Perm items') :
    exactTotal items = exactTotal items' :=
  (h.map _).sum_eq

theorem Reordered.isTransaction {payload payload' : PyDict}
    (h : Reordered payload payload') {claimed : Decimal} {items : List LineItem}
    (hread : IsTransaction payload claimed items) :
    ∃ items', IsTransaction payload' claimed items' ∧ items'.Perm items := by
  obtain ⟨data, data', entries, entries', hdata, hdata', hclaim, hentries, hentries',
    hperm⟩ := h
  obtain ⟨found, claim, listed, hfound, hclaimed, hparses, hnonneg, hlisted, hnonempty,
    hitems⟩ := hread
  cases hdata.symm.trans hfound
  cases hentries.symm.trans hlisted
  obtain ⟨items', hitems', hsame⟩ := List.perm_comp_forall₂ hperm.symm hitems
  refine ⟨items', ⟨data', claim, entries', hdata', hclaim ▸ hclaimed, hparses, hnonneg,
    hentries', fun hnil => hnonempty ?_, hitems'⟩, hsame⟩
  rw [hnil] at hperm
  exact hperm.eq_nil

theorem Reordered.claimHolds {payload payload' : PyDict} (h : Reordered payload payload')
    (hholds : ClaimHolds payload) : ClaimHolds payload' := by
  obtain ⟨claimed, items, hread, hwithin⟩ := hholds
  obtain ⟨items', hread', hsame⟩ := h.isTransaction hread
  exact ⟨claimed, items', hread', by rwa [exactTotal_perm hsame]⟩

/-- While no digit is lost the order of the line items makes no difference. -/
theorem Reordered.verified_iff {payload payload' : PyDict}
    (h : Reordered payload payload') {result result' : EngineResult}
    (hreturn : verifyFinancial payload = .ok result)
    (hreturn' : verifyFinancial payload' = .ok result')
    (hfits : WithinPrecision payload) (hfits' : WithinPrecision payload') :
    result.verified = true ↔ result'.verified = true := by
  have hexact := (verified_iff_claimHolds_iff hreturn).mpr
    (decidesExactly_of_withinPrecision hreturn hfits)
  have hexact' := (verified_iff_claimHolds_iff hreturn').mpr
    (decidesExactly_of_withinPrecision hreturn' hfits')
  rw [hexact, hexact']
  exact ⟨h.claimHolds, h.symm.claimHolds⟩

/-- The guard's verdict is the exact one whenever no product and no running total
has more digits than the context, and in general exactly when the rounding leaves
the decision as it is. -/
theorem finance_verdict_exact_iff (payload : PyDict) (result : EngineResult)
    (hreturn : verifyFinancial payload = .ok result) :
    (WithinPrecision payload → (result.verified = true ↔ ClaimHolds payload)) ∧
      ((result.verified = true ↔ ClaimHolds payload) ↔ DecidesExactly payload) :=
  ⟨fun hfits => (verified_iff_claimHolds_iff hreturn).mpr
      (decidesExactly_of_withinPrecision hreturn hfits),
    verified_iff_claimHolds_iff hreturn⟩

namespace Reference

/-- One item just below half a cent, with more digits than the context. -/
def longAmount : PyDict :=
  financialPayload (py "0.02") [py "0.00499999999999999999999999999999"]

def numbers (payload : PyDict) : Option (Decimal × List (Decimal × Decimal)) :=
  match validateFinancialPayload payload with
  | .ok transaction => some (transaction.claimedTotal,
      transaction.lineItems.map fun item => (item.amount, item.quantity))
  | .error _ => none

theorem numbers_of_isTransaction {payload : PyDict} {claimed : Decimal}
    {items : List LineItem} (hread : IsTransaction payload claimed items) :
    numbers payload =
      some (claimed, items.map fun item => (item.amount, item.quantity)) := by
  obtain ⟨transaction, hvalid, rfl, rfl⟩ :=
    validateFinancialPayload_ok_iff.mpr hread
  simp [numbers, hvalid]

end Reference

/-- The amount is rounded up to half a cent and then to a cent, and a claim two
cents off is verified. -/
theorem finance_verdict_long_amount :
    ∃ result, verifyFinancial Reference.longAmount = .ok result ∧
      result.verified = true ∧ ¬ ClaimHolds Reference.longAmount := by
  have hverified : (verifyFinancial Reference.longAmount).toOption.map
      (fun result => result.verified) = some true := by decide +kernel
  cases hresult : verifyFinancial Reference.longAmount with
  | error exc =>
      rw [hresult] at hverified
      cases hverified
  | ok result =>
      rw [hresult] at hverified
      refine ⟨result, rfl, Option.some.inj hverified, ?_⟩
      rintro ⟨claimed, items, hread, hwithin⟩
      have hnumbers : Reference.numbers Reference.longAmount = some (⟨2, -2⟩,
          [(⟨499999999999999999999999999999, -32⟩, ⟨1, 0⟩)]) := by
        decide +kernel
      rw [Reference.numbers_of_isTransaction hread, Option.some.injEq,
        Prod.mk.injEq] at hnumbers
      obtain ⟨rfl, hitems⟩ := hnumbers
      obtain ⟨item, rest, rfl, hitem, hrest⟩ := List.map_eq_cons_iff.mp hitems
      rw [List.map_eq_nil_iff.mp hrest, withinCent_iff] at hwithin
      simp only [Prod.mk.injEq] at hitem
      simp only [exactTotal, List.map_cons, List.map_nil, List.sum_cons,
        List.sum_nil, hitem.1, hitem.2] at hwithin
      revert hwithin
      decide +kernel

/-- An ordinary invoice is decided exactly. -/
theorem finance_verdict_exact_invoice :
    ∃ result, verifyFinancial Reference.invoice = .ok result ∧
      (result.verified = true ↔ ClaimHolds Reference.invoice) := by
  cases hresult : verifyFinancial Reference.invoice with
  | error exc =>
      have hreturns : (verifyFinancial Reference.invoice).toOption.isSome =
        true := by decide +kernel
      rw [hresult] at hreturns
      cases hreturns
  | ok result =>
      refine ⟨result, rfl,
        (finance_verdict_exact_iff Reference.invoice result hresult).1 ?_⟩
      intro claimed items hread
      have hnumbers : Reference.numbers Reference.invoice = some (⟨15000, -2⟩,
          [(⟨10000, -2⟩, ⟨1, 0⟩), (⟨5000, -2⟩, ⟨1, 0⟩)]) := by
        decide +kernel
      rw [Reference.numbers_of_isTransaction hread, Option.some.injEq,
        Prod.mk.injEq] at hnumbers
      obtain ⟨rfl, hitems⟩ := hnumbers
      obtain ⟨first, rest, rfl, hfirst, hrest⟩ := List.map_eq_cons_iff.mp hitems
      obtain ⟨second, others, rfl, hsecond, hothers⟩ :=
        List.map_eq_cons_iff.mp hrest
      rw [List.map_eq_nil_iff.mp hothers]
      simp only [Prod.mk.injEq] at hfirst hsecond
      refine ⟨?_, ?_⟩
      · simp only [FitsContext, hfirst.1, hfirst.2, hsecond.1, hsecond.2,
          Decimal.value, and_true]
        norm_num
        refine ⟨⟨100, 0, ?_⟩, ⟨50, 0, ?_⟩, ⟨150, 0, ?_⟩⟩
        all_goals norm_num [defaultContext]
      · rintro ⟨-, hlarge⟩
        revert hlarge
        decide +kernel

end QwedA2A
