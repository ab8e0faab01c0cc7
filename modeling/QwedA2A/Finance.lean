/-
The finance guard: what it reads from a payload, how it totals the line items,
and when its verdict is the exact one.
-/
import QwedA2A.Schema

namespace QwedA2A

open DecimalRounding

def financeUnverifiable (reason : PyStr) : EngineResult where
  verified := false
  status := some (py "unverifiable")
  engine := py "finance_guard"
  reason := reason

/-- A line item that passed its checks, as the totalling loop reads it. -/
structure LineItem where
  amount : Decimal
  quantity : Decimal
  amountNonneg : 0 ≤ amount.value
  quantityNonneg : 0 ≤ quantity.value

/-- A payload that passed its checks; `claimedText` is the claim as written. -/
structure Transaction where
  claimedTotal : Decimal
  claimedText : PyStr
  lineItems : List LineItem
  claimedNonneg : 0 ≤ claimedTotal.value

/-- `is_finite()`, and the number. -/
def PyDecimal.toFinite : PyDecimal → Option Decimal
  | .finite number => some number
  | _ => none

/-- `value is None`. -/
def PyVal.isNone : PyVal → Bool
  | .pyNone => true
  | _ => false

def validateLineItem (item : PyVal) : Except EngineResult LineItem :=
  match item with
  | .dict entries =>
      let amount := (dictGet entries (py "amount")).getD .pyNone
      let quantity := (dictGet entries (py "quantity")).getD (.int 1)
      if amount.isNone then
        .error (financeUnverifiable (py "FINANCIAL_TRANSACTION payload contains incomplete line item: each line item must include a non-null amount."))
      else if quantity.isNone then
        .error (financeUnverifiable (py "FINANCIAL_TRANSACTION payload contains incomplete line item: quantity must not be null."))
      else
        match decimalOf amount, decimalOf quantity with
        | .ok decAmount, .ok decQuantity =>
            match decAmount.toFinite, decQuantity.toFinite with
            | some amount, some quantity =>
                if h : 0 ≤ amount.value ∧ 0 ≤ quantity.value then
                  .ok ⟨amount, quantity, h.1, h.2⟩
                else
                  .error (financeUnverifiable (py "FINANCIAL_TRANSACTION payload contains negative line item: amount and quantity must not be negative."))
            | _, _ =>
                .error (financeUnverifiable (py "FINANCIAL_TRANSACTION payload contains non-finite line item: amount and quantity must be finite numeric values."))
        | _, _ =>
            .error (financeUnverifiable (py "FINANCIAL_TRANSACTION payload contains malformed line item: amount and quantity must be numeric values."))
  | _ =>
      .error (financeUnverifiable (py "FINANCIAL_TRANSACTION payload contains malformed line item: each line item must be a mapping."))

/-- `str(value)` of a claim that parsed as a number. -/
def claimText (value : PyVal) : PyStr :=
  match value.scalarText with
  | .ok (some text) => text
  | _ => []

def malformedClaim : EngineResult :=
  financeUnverifiable (py "FINANCIAL_TRANSACTION payload contains malformed field: data.claimed_total must be a numeric value.")

/-- The checks on the claimed total, its number and the proof it is none below
zero. -/
def validateClaimedTotal (claimed : PyVal) :
    Except EngineResult {number : Decimal // 0 ≤ number.value} :=
  match decimalOf claimed with
  | .error _ => .error malformedClaim
  | .ok decClaimed =>
      match decClaimed.toFinite with
      | none =>
          .error (financeUnverifiable (py "FINANCIAL_TRANSACTION payload contains non-finite field: data.claimed_total must be a finite numeric value."))
      | some number =>
          if h : 0 ≤ number.value then .ok ⟨number, h⟩
          else
            .error (financeUnverifiable (py "FINANCIAL_TRANSACTION payload contains negative field: data.claimed_total must not be negative."))

def validateFinancialPayload (payload : PyDict) :
    Except EngineResult Transaction :=
  match (dictGet payload (py "data")).getD (.dict []) with
  | .dict data =>
      let claimed := (dictGet data (py "claimed_total")).getD .pyNone
      match (dictGet data (py "line_items")).getD (.list []) with
      | .list lineItems =>
          if claimed.isNone then
            .error (financeUnverifiable (py "FINANCIAL_TRANSACTION payload missing required field: data.claimed_total must be present for verification."))
          else do
            let total ← validateClaimedTotal claimed
            if lineItems = [] then
              .error (financeUnverifiable (py "FINANCIAL_TRANSACTION payload missing required field: data.line_items must be present for verification."))
            else do
              let items ← lineItems.mapM validateLineItem
              pure ⟨total.1, claimText claimed, items, total.2⟩
      | _ =>
          .error (financeUnverifiable (py "FINANCIAL_TRANSACTION payload missing required field: data.line_items must be a list for verification."))
  | _ =>
      .error (financeUnverifiable (py "FINANCIAL_TRANSACTION payload missing required field: data must be a mapping for verification."))

/-- The running total: each product and each sum is rounded by the context. -/
def runningTotal (total : Decimal) : List LineItem → Except PyExc Decimal
  | [] => .ok total
  | item :: rest => do
      let product ← decimalMul item.amount item.quantity
      let next ← decimalAdd total product
      runningTotal next rest

/-- `Decimal("0.01")`. -/
def tolerance : Decimal := ⟨1, -2⟩

def verifyFinancial (payload : PyDict) : Except PyExc EngineResult :=
  match validateFinancialPayload payload with
  | .error result => .ok result
  | .ok transaction => do
      let total ← runningTotal ⟨0, 0⟩ transaction.lineItems
      let computedTotal ← quantizeCents total
      match quantizeCents transaction.claimedTotal with
      | .error _ => pure malformedClaim
      | .ok claimedDecimal =>
          let difference ← decimalSub computedTotal claimedDecimal
          if tolerance.value < difference.abs.value then
            pure
              { verified := false
                engine := py "finance_guard"
                reason := py "Mathematical hallucination detected: claimed_total=" ++
                  transaction.claimedText ++ py ", computed_total=" ++
                  centsText computedTotal
                computedTotal := some computedTotal
                claimedTotal := some claimedDecimal }
          else
            pure
              { verified := true
                engine := py "finance_guard"
                reason := py "Financial totals verified"
                computedTotal := some computedTotal }

namespace Reference

def financialPayload (claimedTotal : PyStr) (amounts : List PyStr) : PyDict :=
  [(.str (py "data"), .dict
    [(.str (py "claimed_total"), .str claimedTotal),
      (.str (py "line_items"), .list (amounts.map fun amount =>
        .dict [(.str (py "amount"), .str amount)]))])]

def invoice : PyDict :=
  financialPayload (py "150.00") [py "100.00", py "50.00"]

end Reference

end QwedA2A
