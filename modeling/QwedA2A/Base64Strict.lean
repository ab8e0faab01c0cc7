/-
The strict base64 decoder against the standard encoding.  Every encoding is read
back; what else is read has padding to spare or bits that no byte holds.
-/
import QwedA2A.Jwk

namespace QwedA2A

open Radix64

def b64StdChar (sextet : ℕ) : PyChar := b64StdAlphabet.getD sextet equalsSign

/-- `base64.b64encode(raw)`. -/
def b64Encode (raw : List ℕ) : PyStr :=
  (sextets raw).map b64StdChar ++ List.replicate ((3 - raw.length % 3) % 3) equalsSign

/-- A `bytes` object. -/
def IsBytes (raw : List ℕ) : Prop := ∀ b ∈ raw, b < 256

/-- The text is read exactly as the encoding it is, and refused if it is none. -/
def ReadsStrictly (text : PyStr) : Prop :=
  (∀ raw, b64DecodeStrict text = .ok raw ↔ IsBytes raw ∧ b64Encode raw = text) ∧
    ((¬ ∃ raw, IsBytes raw ∧ b64Encode raw = text) →
      ∃ exc, b64DecodeStrict text = .error exc ∧ exc.type = .valueError)

/-- Text of whole groups that is readable up to its trailing padding ends in fewer
than four padding signs, and the bits behind its last byte are zero. -/
def NothingToSpare (text : PyStr) : Prop :=
  text.length % 4 = 0 → ∀ vals : List ℕ, (∀ v ∈ vals, v < 64) →
    rstripChar equalsSign text = vals.map b64StdChar → vals.length % 4 ≠ 1 →
      text.length < vals.length + 4 ∧ tidy vals = true

theorem b64StdChar_ne_equals {v : ℕ} (hv : v < 64) : b64StdChar v ≠ equalsSign := by
  have hall : ∀ v < 64, b64StdChar v ≠ equalsSign := by decide +kernel
  exact hall v hv

theorem b64Index_eq_ok {c : PyChar} {v : ℕ} :
    b64Index c = .ok v ↔ v < 64 ∧ b64StdChar v = c := by
  have hfound : ∀ v < 64, b64StdAlphabet.findIdx? (· = b64StdChar v) = some v := by
    decide +kernel
  have hlength : b64StdAlphabet.length = 64 := by decide +kernel
  constructor
  · intro h
    rw [b64Index] at h
    split at h
    next index hindex =>
      cases h
      obtain ⟨hlt, hchar, -⟩ := List.findIdx?_eq_some_iff_getElem.mp hindex
      rw [hlength] at hlt
      refine ⟨hlt, ?_⟩
      rw [b64StdChar, List.getD_eq_getElem _ _ (by rwa [hlength])]
      exact of_decide_eq_true hchar
    next => cases h
  · rintro ⟨hlt, rfl⟩
    rw [b64Index, hfound v hlt]

theorem b64Index_error {c : PyChar} {exc : PyExc} (h : b64Index c = .error exc) :
    exc.type = .valueError := by
  rw [b64Index] at h
  split at h
  · cases h
  · cases h
    rfl

/-- The decoder's table lookup inverts the encoder's. -/
theorem mapM_b64Index_eq_ok {text : PyStr} {vals : List ℕ} :
    text.mapM b64Index = .ok vals ↔ (∀ v ∈ vals, v < 64) ∧ text = vals.map b64StdChar := by
  rw [mapM_ok_iff]
  constructor
  · intro h
    induction h with
    | nil => simp
    | cons hchar _ ih =>
        obtain ⟨hlt, rfl⟩ := b64Index_eq_ok.mp hchar
        refine ⟨List.forall_mem_cons.mpr ⟨hlt, ih.1⟩, ?_⟩
        rw [List.map_cons, ← ih.2]
  · rintro ⟨hlt, rfl⟩
    induction vals with
    | nil => exact .nil
    | cons v vals ih =>
        rw [List.forall_mem_cons] at hlt
        exact .cons (b64Index_eq_ok.mpr ⟨hlt.1, rfl⟩) (ih hlt.2)

/-- What the decoder accepts, and what it makes of it. -/
theorem b64DecodeStrict_eq_ok {text : PyStr} {raw : List ℕ} :
    b64DecodeStrict text = .ok raw ↔
      text.length % 4 = 0 ∧ ∃ vals, (∀ v ∈ vals, v < 64) ∧
        rstripChar equalsSign text = vals.map b64StdChar ∧ bytes? vals = some raw := by
  rw [b64DecodeStrict, guard_eq_ok, not_not]
  refine and_congr_right fun _ => ?_
  rw [bind_eq_ok]
  constructor
  · rintro ⟨vals, hvals, hbytes⟩
    obtain ⟨hlt, htext⟩ := mapM_b64Index_eq_ok.mp hvals
    refine ⟨vals, hlt, htext, ?_⟩
    split at hbytes
    next out hout =>
      cases hbytes
      exact hout
    next => cases hbytes
  · rintro ⟨vals, hlt, htext, hbytes⟩
    exact ⟨vals, mapM_b64Index_eq_ok.mpr ⟨hlt, htext⟩, by rw [hbytes]⟩

/-- Whatever is refused is refused with a ValueError. -/
theorem b64DecodeStrict_error {text : PyStr} {exc : PyExc}
    (h : b64DecodeStrict text = .error exc) : exc.type = .valueError := by
  rw [b64DecodeStrict, guard_eq_error] at h
  rcases h with ⟨-, rfl⟩ | ⟨-, h⟩
  · rfl
  · rcases bind_eq_error.mp h with hchar | ⟨vals, -, h⟩
    · obtain ⟨c, -, hc⟩ := mapM_error hchar
      exact b64Index_error hc
    · split at h
      · cases h
      · cases h
        rfl

/-- A text is its stripped part with the padding back. -/
theorem eq_rstripChar_append (c : PyChar) (text : PyStr) :
    text = rstripChar c text ++
      List.replicate (text.length - (rstripChar c text).length) c := by
  have hpads : ∀ d ∈ text.reverse.takeWhile (· = c), d = c := fun d hd =>
    of_decide_eq_true (List.all_eq_true.mp (List.all_takeWhile) d hd)
  have hsplit : text = rstripChar c text ++ (text.reverse.takeWhile (· = c)).reverse := by
    rw [rstripChar, ← List.reverse_append, List.takeWhile_append_dropWhile,
      List.reverse_reverse]
  have hlength := congrArg List.length hsplit
  rw [List.length_append, List.length_reverse] at hlength
  rw [hlength, Nat.add_sub_cancel_left]
  conv_lhs => rw [hsplit, List.eq_replicate_of_mem hpads, List.reverse_replicate]

theorem b64DecodeStrict_b64Encode {raw : List ℕ} (hraw : IsBytes raw) :
    b64DecodeStrict (b64Encode raw) = .ok raw := by
  have hlt := sextets_lt hraw
  refine b64DecodeStrict_eq_ok.mpr ⟨?_, sextets raw, hlt, ?_, bytes?_sextets hraw⟩
  · rw [b64Encode, List.length_append, List.length_map, List.length_replicate]
    exact length_sextets_pad raw
  · refine rstripChar_append_replicate (fun d hd => ?_) _
    obtain ⟨v, hv, rfl⟩ := List.mem_map.mp hd
    exact b64StdChar_ne_equals (hlt v hv)

/-- What is read with nothing to spare is the encoding of what it is read as. -/
theorem b64Encode_of_decode {text : PyStr} {raw vals : List ℕ}
    (hwhole : text.length % 4 = 0) (hlt : ∀ v ∈ vals, v < 64)
    (htext : rstripChar equalsSign text = vals.map b64StdChar)
    (hbytes : bytes? vals = some raw) (hpads : text.length < vals.length + 4)
    (htidy : tidy vals = true) : b64Encode raw = text := by
  have hsextets : sextets raw = vals := sextets_bytes? hlt hbytes htidy
  have hpadded := length_sextets_pad raw
  have hsplit := eq_rstripChar_append equalsSign text
  have hlengths := congrArg List.length hsplit
  rw [htext, List.length_map] at hsplit hlengths
  rw [List.length_append, List.length_map, List.length_replicate] at hlengths
  rw [hsextets] at hpadded
  rw [b64Encode, hsextets, hsplit]
  congr 2
  omega

/-- The decoder reads exactly the standard encodings, when the text has nothing to
spare; otherwise it reads a text that is no encoding. -/
theorem readsStrictly_iff (text : PyStr) : ReadsStrictly text ↔ NothingToSpare text := by
  constructor
  · rintro ⟨hexact, -⟩ hwhole vals hlt htext hgroups
    obtain ⟨raw, hbytes⟩ := Option.isSome_iff_exists.mp ((bytes?_isSome vals).mpr hgroups)
    obtain ⟨hraw, rfl⟩ := (hexact raw).mp
      (b64DecodeStrict_eq_ok.mpr ⟨hwhole, vals, hlt, htext, hbytes⟩)
    have hstrip : rstripChar equalsSign (b64Encode raw) = (sextets raw).map b64StdChar := by
      refine rstripChar_append_replicate (fun d hd => ?_) _
      obtain ⟨v, hv, rfl⟩ := List.mem_map.mp hd
      exact b64StdChar_ne_equals (sextets_lt hraw v hv)
    have hsextets : sextets raw = vals := by
      have hboth := mapM_b64Index_eq_ok.mpr ⟨hlt, htext⟩
      rw [mapM_b64Index_eq_ok.mpr ⟨sextets_lt hraw, hstrip⟩] at hboth
      exact Except.ok.inj hboth
    rw [← hsextets, b64Encode, List.length_append, List.length_map, List.length_replicate]
    exact ⟨by omega, tidy_sextets raw⟩
  · intro hspare
    have hback : ∀ raw, b64DecodeStrict text = .ok raw →
        IsBytes raw ∧ b64Encode raw = text := by
      intro raw hdecode
      obtain ⟨hwhole, vals, hlt, htext, hbytes⟩ := b64DecodeStrict_eq_ok.mp hdecode
      have hgroups : vals.length % 4 ≠ 1 :=
        (bytes?_isSome vals).mp (Option.isSome_of_eq_some hbytes)
      obtain ⟨hpads, htidy⟩ := hspare hwhole vals hlt htext hgroups
      exact ⟨bytes?_lt hbytes, b64Encode_of_decode hwhole hlt htext hbytes hpads htidy⟩
    refine ⟨fun raw => ⟨hback raw, ?_⟩, fun hnone => ?_⟩
    · rintro ⟨hraw, rfl⟩
      exact b64DecodeStrict_b64Encode hraw
    · cases hdecode : b64DecodeStrict text with
      | ok raw => exact absurd ⟨raw, hback raw hdecode⟩ hnone
      | error exc => exact ⟨exc, rfl, b64DecodeStrict_error hdecode⟩

/-- A whole group of padding is read as no bytes, and so is nothing; `AB==` is read
as the byte that `AA==` encodes. -/
theorem not_readsStrictly :
    ¬ ReadsStrictly (py "====") ∧ ¬ ReadsStrictly (py "AB==") := by
  refine ⟨fun h => ?_, fun h => ?_⟩
  · have hread := (h.1 []).mp (by rfl)
    exact absurd hread.2 (by decide)
  · have hread := (h.1 [0]).mp (by rfl)
    exact absurd hread.2 (by decide)

end QwedA2A
