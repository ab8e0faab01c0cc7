/-
Who is calling.  The operator's key map is bounded, parsed and filtered; the caller
is the agent whose key has the bytes of the header.  Anything else is a 401.
-/
import QwedA2A.AgentIds
import QwedA2A.BodyLimit
import QwedA2A.ParsedJson

namespace QwedA2A

open PyJson

def utf8Char (c : PyChar) : List ℕ :=
  if c.val < 0x80 then [c.val]
  else if c.val < 0x800 then [0xC0 + c.val / 64, 0x80 + c.val % 64]
  else if c.val < 0x10000 then
    [0xE0 + c.val / 4096, 0x80 + c.val / 64 % 64, 0x80 + c.val % 64]
  else
    [0xF0 + c.val / 262144, 0x80 + c.val / 4096 % 64, 0x80 + c.val / 64 % 64,
      0x80 + c.val % 64]

/-- `text.encode("utf-8")`; `none` is a UnicodeEncodeError. -/
def encodeUtf8 (text : PyStr) : Option (List ℕ) :=
  if isUnicode text then some (text.flatMap utf8Char) else none

def readUtf8 : List ℕ → Option (PyChar × List ℕ)
  | a :: rest =>
      if a < 0x80 then some (Fin.ofNat _ a, rest)
      else
        match rest with
        | b :: rest =>
            if a < 0xE0 then some (Fin.ofNat _ (64 * (a - 0xC0) + (b - 0x80)), rest)
            else
              match rest with
              | c :: rest =>
                  if a < 0xF0 then
                    some (Fin.ofNat _
                      (4096 * (a - 0xE0) + 64 * (b - 0x80) + (c - 0x80)), rest)
                  else
                    match rest with
                    | d :: rest =>
                        some (Fin.ofNat _ (262144 * (a - 0xF0) + 4096 * (b - 0x80) +
                          64 * (c - 0x80) + (d - 0x80)), rest)
                    | [] => none
              | [] => none
        | [] => none
  | [] => none

theorem readUtf8_utf8Char (c : PyChar) (rest : List ℕ) :
    readUtf8 (utf8Char c ++ rest) = some (c, rest) := by
  have hlt := c.isLt
  have hval : ∀ n, n = c.val → Fin.ofNat 0x110000 n = c := by
    rintro _ rfl
    exact Fin.ofNat_val_eq_self c
  rw [utf8Char]
  split_ifs with hone htwo hthree
  · simp only [List.singleton_append, readUtf8, hone, if_true, hval _ rfl]
  · simp only [List.cons_append, List.nil_append, readUtf8]
    rw [if_neg (by omega), if_pos (by omega), hval _ (by omega)]
  · simp only [List.cons_append, List.nil_append, readUtf8]
    rw [if_neg (by omega), if_neg (by omega), if_pos (by omega), hval _ (by omega)]
  · simp only [List.cons_append, List.nil_append, readUtf8]
    rw [if_neg (by omega), if_neg (by omega), if_neg (by omega), hval _ (by omega)]

/-- No character begins with a byte that UTF-8 does not use. -/
theorem utf8Char_head (c : PyChar) :
    ∃ first rest, utf8Char c = first :: rest ∧ first ≠ 0xFF := by
  have hlt := c.isLt
  rw [utf8Char]
  split_ifs
  · exact ⟨_, _, rfl, by omega⟩
  · exact ⟨_, _, rfl, by omega⟩
  · exact ⟨_, _, rfl, by omega⟩
  · exact ⟨_, _, rfl, by omega⟩

theorem encodeUtf8_injective {s t : PyStr} {bytes : List ℕ}
    (hs : encodeUtf8 s = some bytes) (ht : encodeUtf8 t = some bytes) : s = t := by
  rw [encodeUtf8] at hs ht
  split_ifs at hs ht
  have heq : s.flatMap utf8Char ++ [0xFF] = t.flatMap utf8Char ++ [0xFF] := by
    rw [Option.some.inj hs, Option.some.inj ht]
  exact (UniqueReading.codes_injective (fun c rest (_ : True) => readUtf8_utf8Char c rest)
    (fun c _ => utf8Char_head c) (fun _ _ => trivial) (fun _ _ => trivial) heq).1

/-- Fail-closed bound on the operator key-map payload before parsing. -/
def maxKeysJsonChars : ℕ := 65536

/-- Sanitize the operator key-map envelope before JSON parsing. -/
def sanitizeKeysJson (raw : PyStr) : Except PyExc PyStr :=
  let text := strip raw
  if text = [] ∨ maxKeysJsonChars < text.length then
    .error ⟨.valueError, py "key map has invalid size"⟩
  else if ¬ ((py "\x7b").isPrefixOf text = true ∧ (py "\x7d").isSuffixOf text = true) then
    .error ⟨.valueError, py "key map must be a JSON object"⟩
  else .ok text

def keysNotSet : PyStr :=
  py "QWED_A2A_API_KEYS is not set; /a2a/intercept denies all requests until per-agent API keys are configured."

def keysNotJson : PyStr :=
  py "QWED_A2A_API_KEYS is not a JSON object; /a2a/intercept denies all requests until it is fixed."

def keysNotObject : PyStr :=
  py "QWED_A2A_API_KEYS must be a JSON object mapping API keys to agent IDs; /a2a/intercept denies all requests until it is fixed."

def keysUnusable : PyStr :=
  py "QWED_A2A_API_KEYS contains no usable key->agent entries; /a2a/intercept denies all requests until it is fixed."

/-- `except (ValueError, RecursionError)`; JSONDecodeError is a ValueError. -/
def caughtByKeyLoader (exc : PyExc) : Bool :=
  exc.type = .valueError || exc.type = .jsonDecodeError || exc.type = .recursionError

/-- One entry of the parsed map: kept under its key when it is usable. -/
def addApiKey (keys : List (PyStr × PyStr)) (entry : PyVal × PyVal) :
    List (PyStr × PyStr) :=
  match entry.1 with
  | .str key =>
      if key = [] then keys
      else
        match validAgentId entry.2 with
        | none => keys
        | some canonical => setMember keys key canonical
  | _ => keys

/-- Load the API-key -> agent-ID map from the environment: the map, and the warning
that is due. -/
def loadApiKeys (interp : Interpreter) (raw : PyStr) :
    Except PyExc (List (PyStr × PyStr) × Option PyStr) :=
  if strip raw = [] then .ok ([], some keysNotSet)
  else
    match sanitizeKeysJson raw >>= loads interp with
    | .error exc => if caughtByKeyLoader exc then .ok ([], some keysNotJson) else .error exc
    | .ok (.dict entries) =>
        let keys := entries.foldl addApiKey []
        .ok (keys, if keys = [] then some keysUnusable else none)
    | .ok _ => .ok ([], some keysNotObject)

def authNotConfigured : RouteExc :=
  .http 401 (py "API authentication is not configured for this service.")

def invalidApiKey : RouteExc := .http 401 (py "Invalid or missing API key.")

/-- The loop over the key map: the first key with the bytes. -/
def matchApiKey (provided : List ℕ) : List (PyStr × PyStr) → Option PyStr
  | [] => none
  | (storedKey, agentId) :: rest =>
      match encodeUtf8 storedKey with
      | none => matchApiKey provided rest
      | some candidate =>
          if provided = candidate then some agentId else matchApiKey provided rest

/-- Authenticate the caller and return its server-side agent ID, and the warning
that is due. -/
def requireAgentIdentity (interp : Interpreter) (raw : PyStr)
    (header : Option PyStr) : Except RouteExc PyStr × Option PyStr :=
  match loadApiKeys interp raw with
  | .error exc => (.error (.other exc), none)
  | .ok (keyMap, warning) =>
      (if keyMap = [] then .error authNotConfigured
        else
          match encodeUtf8 (header.getD []) with
          | none => .error invalidApiKey
          | some provided =>
              match matchApiKey provided keyMap with
              | some agentId => .ok agentId
              | none => .error invalidApiKey, warning)

/-- The operator's map gives a key to an agent. -/
def GrantsKey (interp : Interpreter) (raw key agentId : PyStr) : Prop :=
  ∃ text entries value, sanitizeKeysJson raw = .ok text ∧
    loads interp text = .ok (.dict entries) ∧ key ≠ [] ∧
      dictGet entries key = some value ∧ validAgentId value = some agentId

def usableEntry (member : PyStr × PyVal) : Option (PyStr × PyStr) :=
  if member.1 = [] then none
  else (validAgentId member.2).map fun canonical => (member.1, canonical)

theorem usableEntry_eq_some {member : PyStr × PyVal} {entry : PyStr × PyStr} :
    usableEntry member = some entry ↔
      entry.1 = member.1 ∧ member.1 ≠ [] ∧ validAgentId member.2 = some entry.2 := by
  rw [usableEntry]
  split_ifs with hempty
  · simp [hempty]
  · simp only [Option.map_eq_some_iff, Prod.ext_iff]
    constructor
    · rintro ⟨canonical, hvalid, hkey, hagent⟩
      exact ⟨hkey.symm, hempty, hagent ▸ hvalid⟩
    · rintro ⟨hkey, _, hvalid⟩
      exact ⟨entry.2, hvalid, hkey.symm, rfl⟩

theorem usable_names_sublist (members : List (PyStr × PyVal)) :
    ((members.filterMap usableEntry).map Prod.fst).Sublist (members.map Prod.fst) := by
  induction members with
  | nil => exact .slnil
  | cons member rest ih =>
      cases hentry : usableEntry member with
      | none =>
          rw [List.filterMap_cons_none hentry]
          exact ih.cons _
      | some entry =>
          rw [List.filterMap_cons_some hentry, List.map_cons, List.map_cons,
            (usableEntry_eq_some.mp hentry).1]
          exact ih.cons_cons _

theorem dictGet_eq_some_iff {members : List (PyStr × PyVal)}
    (hdistinct : (members.map Prod.fst).Nodup) {name : PyStr} {value : PyVal} :
    dictGet (objectEntries members) name = some value ↔ (name, value) ∈ members := by
  induction members with
  | nil => simp [objectEntries]
  | cons member rest ih =>
      rw [List.map_cons, List.nodup_cons] at hdistinct
      rw [objectEntries, List.map_cons, ← objectEntries, dictGet_cons_str,
        List.mem_cons]
      split_ifs with hname
      · have hnew : (name, value) ∉ rest := by
          intro hmem
          exact hdistinct.1 (hname ▸ List.mem_map_of_mem hmem)
        rw [or_iff_left hnew, Option.some.injEq, Prod.ext_iff]
        exact ⟨fun h => ⟨hname.symm, h.symm⟩, fun h => h.2.symm⟩
      · have hother : (name, value) ≠ member := fun h => hname (congrArg Prod.fst h).symm
        rw [or_iff_right hother, ih hdistinct.2]

/-- The loop keeps the usable entries, in their order. -/
theorem foldl_addApiKey (members : List (PyStr × PyVal)) :
    ∀ keys : List (PyStr × PyStr),
      (keys.map Prod.fst ++ members.map Prod.fst).Nodup →
        (objectEntries members).foldl addApiKey keys =
          keys ++ members.filterMap usableEntry := by
  induction members with
  | nil =>
      intro keys _
      exact (List.append_nil keys).symm
  | cons member rest ih =>
      intro keys hdistinct
      have hskip : addApiKey keys (.str member.1, member.2) =
          keys ++ (usableEntry member).toList := by
        have hnew : member.1 ∉ keys.map Prod.fst := by
          intro hmem
          exact (List.nodup_append.mp hdistinct).2.2 _ hmem _ List.mem_cons_self rfl
        simp only [addApiKey, usableEntry]
        split_ifs with hempty
        · exact (List.append_nil keys).symm
        · cases validAgentId member.2 with
          | none => exact (List.append_nil keys).symm
          | some canonical => exact if_neg hnew
      rw [objectEntries, List.map_cons, List.foldl_cons, ← objectEntries, hskip, ih]
      · cases hentry : usableEntry member with
        | none => simp [hentry]
        | some entry => simp [hentry]
      · cases hentry : usableEntry member with
        | none =>
            simp only [Option.toList_none, List.append_nil]
            exact hdistinct.sublist
              ((List.sublist_cons_self _ _).append_left _)
        | some entry =>
            simpa [(usableEntry_eq_some.mp hentry).1] using hdistinct

theorem matchApiKey_eq_some {key : PyStr} {provided : List ℕ}
    (hprovided : encodeUtf8 key = some provided) {keys : List (PyStr × PyStr)}
    (hdistinct : (keys.map Prod.fst).Nodup) {agentId : PyStr} :
    matchApiKey provided keys = some agentId ↔ (key, agentId) ∈ keys := by
  induction keys with
  | nil => simp [matchApiKey]
  | cons entry rest ih =>
      obtain ⟨storedKey, found⟩ := entry
      rw [List.map_cons, List.nodup_cons] at hdistinct
      rw [List.mem_cons, Prod.mk.injEq, matchApiKey]
      by_cases hkey : key = storedKey
      · subst hkey
        have hnew : (key, agentId) ∉ rest := fun hmem =>
          hdistinct.1 (List.mem_map.mpr ⟨_, hmem, rfl⟩)
        simp [hprovided, or_iff_left hnew, eq_comm]
      · rw [or_iff_right fun h => hkey h.1, ← ih hdistinct.2]
        cases hstored : encodeUtf8 storedKey with
        | none => rfl
        | some candidate =>
            have hne : provided ≠ candidate := by
              rintro rfl
              exact hkey (encodeUtf8_injective hprovided hstored)
            simp only [if_neg hne]

/-- The envelope and the reader raise what the loader catches. -/
theorem caught_of_error {interp : Interpreter} {raw : PyStr} {exc : PyExc}
    (h : sanitizeKeysJson raw >>= loads interp = .error exc) :
    caughtByKeyLoader exc = true := by
  rcases bind_eq_error.mp h with hsanitize | ⟨text, _, hread⟩
  · rw [sanitizeKeysJson] at hsanitize
    split_ifs at hsanitize <;> cases hsanitize <;> rfl
  · rcases loads_raises interp text exc hread with htype | htype | htype <;>
      simp [caughtByKeyLoader, htype]

/-- The map that is loaded has each key once, to the agent it is given. -/
structure Loaded (interp : Interpreter) (raw : PyStr) (keys : List (PyStr × PyStr)) :
    Prop where
  distinct : (keys.map Prod.fst).Nodup
  mem_iff : ∀ key agentId, (key, agentId) ∈ keys ↔ GrantsKey interp raw key agentId

theorem loaded_nil {interp : Interpreter} {raw : PyStr}
    (h : ∀ entries, sanitizeKeysJson raw >>= loads interp ≠ .ok (.dict entries)) :
    Loaded interp raw [] where
  distinct := .nil
  mem_iff key agentId := by
    rw [iff_false_left List.not_mem_nil]
    rintro ⟨text, entries, _, htext, hread, _⟩
    exact h entries (bind_eq_ok.mpr ⟨text, htext, hread⟩)

theorem loaded_dict {interp : Interpreter} {raw : PyStr} {entries : PyDict}
    (h : sanitizeKeysJson raw >>= loads interp = .ok (.dict entries)) :
    Loaded interp raw (entries.foldl addApiKey []) := by
  obtain ⟨text, htext, hread⟩ := bind_eq_ok.mp h
  have hparsed := loads_parsed hread
  generalize interp.depth = depth at hparsed
  cases hparsed with
  | dict hdistinct hnames hmembers =>
      rename_i members
      rw [foldl_addApiKey members [] (by simpa using hdistinct), List.nil_append]
      constructor
      · exact hdistinct.sublist (usable_names_sublist members)
      · intro key agentId
        rw [List.mem_filterMap]
        constructor
        · rintro ⟨member, hmember, hentry⟩
          obtain ⟨rfl, hempty, hvalid⟩ := usableEntry_eq_some.mp hentry
          exact ⟨text, _, member.2, htext, hread, hempty,
            (dictGet_eq_some_iff hdistinct).mpr hmember, hvalid⟩
        · rintro ⟨found, others, value, hfound, hothers, hempty, hget, hvalid⟩
          cases htext.symm.trans hfound
          cases hread.symm.trans hothers
          exact ⟨(key, value), (dictGet_eq_some_iff hdistinct).mp hget,
            usableEntry_eq_some.mpr ⟨rfl, hempty, hvalid⟩⟩

theorem loadApiKeys_spec (interp : Interpreter) (raw : PyStr) :
    ∃ keys warning, loadApiKeys interp raw = .ok (keys, warning) ∧
      Loaded interp raw keys := by
  rw [loadApiKeys]
  split_ifs with hblank
  · refine ⟨[], _, rfl, loaded_nil fun entries h => ?_⟩
    rw [sanitizeKeysJson, if_pos (Or.inl hblank)] at h
    cases h
  · split
    next exc h =>
      rw [if_pos (caught_of_error h)]
      refine ⟨[], _, rfl, loaded_nil fun entries hread => ?_⟩
      cases h.symm.trans hread
    next entries h => exact ⟨_, _, rfl, loaded_dict h⟩
    next value hother h =>
      refine ⟨[], _, rfl, loaded_nil fun entries hread => ?_⟩
      cases h.symm.trans hread
      exact hother entries rfl

theorem Loaded.ne_nil_iff {interp : Interpreter} {raw : PyStr}
    {keys : List (PyStr × PyStr)} (h : Loaded interp raw keys) :
    keys ≠ [] ↔ ∃ key agentId, GrantsKey interp raw key agentId := by
  simp only [← h.mem_iff]
  constructor
  · intro hne
    obtain ⟨entry, rest, rfl⟩ := List.exists_cons_of_ne_nil hne
    exact ⟨entry.1, entry.2, List.mem_cons_self⟩
  · rintro ⟨key, agentId, hmem⟩ rfl
    cases hmem

theorem requireAgentIdentity_spec (interp : Interpreter) (raw : PyStr)
    (header : Option PyStr) :
    ∃ keys, Loaded interp raw keys ∧
      (requireAgentIdentity interp raw header).1 =
        if keys = [] then .error authNotConfigured
        else
          match (encodeUtf8 (header.getD [])).bind (matchApiKey · keys) with
          | some agentId => .ok agentId
          | none => .error invalidApiKey := by
  obtain ⟨keys, warning, hload, hloaded⟩ := loadApiKeys_spec interp raw
  refine ⟨keys, hloaded, ?_⟩
  simp only [requireAgentIdentity, hload]
  split_ifs
  · rfl
  · cases encodeUtf8 (header.getD []) with
    | none => rfl
    | some provided => rfl

/-- The header is accepted as an agent's exactly when the map grants it to the agent. -/
theorem requireAgentIdentity_ok_iff {interp : Interpreter} {raw : PyStr}
    {header : Option PyStr} {agentId : PyStr} :
    (requireAgentIdentity interp raw header).1 = .ok agentId ↔
      isUnicode (header.getD []) = true ∧
        GrantsKey interp raw (header.getD []) agentId := by
  obtain ⟨keys, hloaded, hrequire⟩ := requireAgentIdentity_spec interp raw header
  rw [hrequire, ← hloaded.mem_iff]
  by_cases hempty : keys = []
  · subst hempty
    simp
  rw [if_neg hempty]
  have hfound : (encodeUtf8 (header.getD [])).bind (matchApiKey · keys) =
      some agentId ↔
        isUnicode (header.getD []) = true ∧ (header.getD [], agentId) ∈ keys := by
    cases hunicode : isUnicode (header.getD []) with
    | false => simp [encodeUtf8, hunicode]
    | true =>
        have hencode : encodeUtf8 (header.getD []) =
            some ((header.getD []).flatMap utf8Char) := if_pos hunicode
        rw [hencode, Option.bind_some, matchApiKey_eq_some hencode hloaded.distinct,
          eq_self, true_and]
  rw [← hfound]
  cases (encodeUtf8 (header.getD [])).bind (matchApiKey · keys) with
  | none => simp
  | some found => simp

/-- A refusal is a 401, which says whether any key is usable at all. -/
theorem requireAgentIdentity_error {interp : Interpreter} {raw : PyStr}
    {header : Option PyStr} {exc : RouteExc}
    (h : (requireAgentIdentity interp raw header).1 = .error exc) :
    (exc = authNotConfigured ∧ ¬ ∃ key agentId, GrantsKey interp raw key agentId) ∨
      (exc = invalidApiKey ∧ ∃ key agentId, GrantsKey interp raw key agentId) := by
  obtain ⟨keys, hloaded, hrequire⟩ := requireAgentIdentity_spec interp raw header
  rw [hrequire] at h
  rw [← hloaded.ne_nil_iff]
  split_ifs at h with hempty
  · cases h
    exact Or.inl ⟨rfl, not_not.mpr hempty⟩
  · split at h
    next => cases h
    next =>
      cases h
      exact Or.inr ⟨rfl, hempty⟩

/-- The caller is the agent that the operator's map gives to the header, whatever
else the map holds; every other request is refused with a 401, which says whether
any key is usable at all. -/
theorem api_key_identity (interp : Interpreter) (raw : PyStr)
    (header : Option PyStr) :
    (∀ agentId, (requireAgentIdentity interp raw header).1 = .ok agentId ↔
      isUnicode (header.getD []) = true ∧
        GrantsKey interp raw (header.getD []) agentId) ∧
    ∀ exc, (requireAgentIdentity interp raw header).1 = .error exc →
      (exc = authNotConfigured ∧ ¬ ∃ key agentId, GrantsKey interp raw key agentId) ∨
        (exc = invalidApiKey ∧ ∃ key agentId, GrantsKey interp raw key agentId) :=
  ⟨fun _ => requireAgentIdentity_ok_iff, fun _ => requireAgentIdentity_error⟩

end QwedA2A
