import DesignSystem.Cache.Key
import DesignSystem.Proofs.Json.Printer
import DesignSystem.Proofs.Schema.RoundTrip
import DesignSystem.Schema.Encoding
import Mathlib

/-!
# What is hashed for a key

* `TransformOptions.toJson_injective`: options with one JSON form are equal.
* `CacheKey.content_injective`: the bytes that are hashed for a schema that can be read again, a
  platform and options determine all three.
* `CacheKey.ofRequest_eq_iff`: for schemas that were read, keys are equal only of equal requests,
  unless different bytes have one hash.
-/

set_option autoImplicit false

namespace DesignSystem

open Json (Value)

theorem textsToJson_injective {items items' : List String}
    (h : textsToJson items = textsToJson items') : items = items' :=
  (List.map_inj_right fun _ _ => Value.string.inj).1 (Value.array.inj h)

theorem mapValues_bool_injective {flags flags' : Entries Bool}
    (h : flags.mapValues Value.bool = flags'.mapValues .bool) : flags = flags' := by
  refine (List.map_inj_right fun x y hxy => ?_).1 h
  obtain ⟨hname, hflag⟩ := Prod.mk.inj hxy
  exact Prod.ext hname (Value.bool.inj hflag)

theorem nullable_injective {a b : Option String}
    (h : (a.map Value.string).getD .null = (b.map Value.string).getD .null) : a = b := by
  cases a with
  | none =>
    cases b with
    | none => rfl
    | some b => cases h
  | some a =>
    cases b with
    | none => cases h
    | some b => rw [Value.string.inj h]

theorem TransformOptions.toJson_injective {o o' : TransformOptions} (h : o.toJson = o'.toJson) :
    o = o' := by
  obtain ⟨typescript, locales, includeTests, includeStories, convention, flags⟩ := o
  obtain ⟨typescript', locales', includeTests', includeStories', convention', flags'⟩ := o'
  simp only [TransformOptions.toJson, Value.object.injEq, List.cons.injEq, Prod.mk.injEq,
    Value.bool.injEq, true_and, and_true] at h
  obtain ⟨rfl, hlocales, rfl, rfl, hconvention, hflags⟩ := h
  rw [textsToJson_injective hlocales, nullable_injective hconvention,
    mapValues_bool_injective hflags]

end DesignSystem

namespace DesignSystem.CacheKey

/-! ## Bytes -/

theorem bytesOf_eq (s : String) : bytesOf s = s.toList.flatMap String.utf8EncodeChar := by
  rw [bytesOf, String.toUTF8_eq_toByteArray, ← String.utf8Encode_toList, List.utf8Encode]
  simp

theorem bytesOf_injective {s t : String} (h : bytesOf s = bytesOf t) : s = t := by
  refine String.toByteArray_inj.1 (ByteArray.ext (Array.toList_inj.1 ?_))
  simpa [bytesOf] using h

theorem zero_notMem_utf8EncodeChar {c : Char} (h : 0 < c.toNat) :
    0 ∉ String.utf8EncodeChar c := by
  have hne : ∀ n : ℕ, 0 < n → n < 256 → (0 : UInt8) ≠ UInt8.ofNat n := by
    intro n hpos hlt heq
    have hn := congrArg UInt8.toNat heq
    rw [UInt8.toNat_ofNat_of_lt' hlt] at hn
    exact absurd hn (by simpa using hpos.ne)
  have hpos : 0 < c.val.toNat := h
  unfold String.utf8EncodeChar
  dsimp only
  split
  · simpa using hne _ hpos (by omega)
  split
  · simp only [List.mem_cons, List.not_mem_nil, or_false, not_or]
    exact ⟨hne _ (by omega) (by omega), hne _ (by omega) (by omega)⟩
  split
  · simp only [List.mem_cons, List.not_mem_nil, or_false, not_or]
    exact ⟨hne _ (by omega) (by omega), hne _ (by omega) (by omega), hne _ (by omega) (by omega)⟩
  · simp only [List.mem_cons, List.not_mem_nil, or_false, not_or]
    exact ⟨hne _ (by omega) (by omega), hne _ (by omega) (by omega), hne _ (by omega) (by omega),
      hne _ (by omega) (by omega)⟩

theorem zero_notMem_bytesOf {s : String} (h : ∀ c ∈ s.toList, 0 < c.toNat) : 0 ∉ bytesOf s := by
  rw [bytesOf_eq]
  intro hzero
  obtain ⟨c, hc, hmem⟩ := List.mem_flatMap.1 hzero
  exact zero_notMem_utf8EncodeChar (h c hc) hmem

theorem zero_notMem_compact (v : Json.Value) : 0 ∉ bytesOf v.compact :=
  zero_notMem_bytesOf fun _ hc => lt_of_lt_of_le (by decide) (v.le_of_mem_compact hc)

/-! ## Parts -/

/-- A part without zeros can be told from what stands before it. -/
theorem append_zero_injective {as as' bs bs' : List UInt8} (hb : 0 ∉ bs) (hb' : 0 ∉ bs')
    (h : as ++ 0 :: bs = as' ++ 0 :: bs') : as = as' ∧ bs = bs' := by
  have hnil : ∀ {cs ds ds' : List UInt8}, 0 ∉ ds → 0 :: ds = cs ++ 0 :: ds' → cs = [] := by
    intro cs ds ds' hd heq
    cases cs with
    | nil => rfl
    | cons c cs =>
      rw [(List.cons.inj heq).2] at hd
      exact absurd (List.mem_append_right _ List.mem_cons_self) hd
  rcases List.append_eq_append_iff.1 h with ⟨cs, rfl, hcs⟩ | ⟨cs, rfl, hcs⟩
  · obtain rfl := hnil hb hcs
    exact ⟨(List.append_nil as).symm, (List.cons.inj hcs).2⟩
  · obtain rfl := hnil hb' hcs
    exact ⟨List.append_nil as', (List.cons.inj hcs).2.symm⟩

theorem content_eq (s : Schema) (p : PlatformId) (o : TransformOptions) :
    content s p o = bytesOf purpose ++ 0 :: (((bytesOf p.text ++
      0 :: bytesOf s.toJson.compact)) ++ 0 :: bytesOf o.toJson.compact) := by
  simp [content, parts, List.intercalate, List.intersperse]

/-- The bytes that are hashed for a schema that can be read again, a platform and options determine
all three. -/
theorem content_injective {s s' : Schema} (hs : Decoder.Rereads Decoder.schema Schema.toJson s)
    (hs' : Decoder.Rereads Decoder.schema Schema.toJson s') {p p' : PlatformId}
    {o o' : TransformOptions} (h : content s p o = content s' p' o') :
    s = s' ∧ p = p' ∧ o = o' := by
  rw [content_eq, content_eq] at h
  -- a platform may contain zeros, so the parts are told from the last one on
  obtain ⟨h, ho⟩ := append_zero_injective (zero_notMem_compact _) (zero_notMem_compact _)
    (List.cons.inj (List.append_cancel_left h)).2
  obtain ⟨hp, hs₀⟩ := append_zero_injective (zero_notMem_compact _) (zero_notMem_compact _) h
  refine ⟨?_, ?_, ?_⟩
  · exact hs.injective hs' (Json.Value.compact_injective (bytesOf_injective hs₀))
  · exact congrArg PlatformId.mk (bytesOf_injective hp)
  · exact TransformOptions.toJson_injective (Json.Value.compact_injective (bytesOf_injective ho))

/-! ## Requests -/

/-- The bytes that are hashed determine the request, and so does the key, unless the two sequences
of bytes are a collision. -/
theorem ofRequest_eq_iff {text text' : String} {s s' : Schema}
    (hs : Decoder.ofText Decoder.schema text = .ok s)
    (hs' : Decoder.ofText Decoder.schema text' = .ok s') (p p' : PlatformId)
    (o o' : TransformOptions) :
    (content s p o = content s' p' o' ↔ s = s' ∧ p = p' ∧ o = o') ∧
    ((Blake3.digest (content s p o) = Blake3.digest (content s' p' o') →
        content s p o = content s' p' o') →
      (ofRequest s p o = ofRequest s' p' o' ↔ s = s' ∧ p = p' ∧ o = o')) := by
  have hcontent : content s p o = content s' p' o' → s = s' ∧ p = p' ∧ o = o' :=
    content_injective (Decoder.rereads_of_ofText hs) (Decoder.rereads_of_ofText hs')
  refine ⟨⟨hcontent, ?_⟩, fun hcollision => ⟨fun hkey => ?_, ?_⟩⟩
  · rintro ⟨rfl, rfl, rfl⟩
    rfl
  · exact hcontent (hcollision (congrArg CacheKey.digest hkey))
  · rintro ⟨rfl, rfl, rfl⟩
    rfl

/-- A schema with one token, a gap of some width. -/
def gapSchema (width : String) : Schema where
  id := "brand"
  tokens := { primitive := [("gap", .leaf (.text width))] }

/-- Another width makes another key, here for a platform whose name holds a zero. -/
theorem ofRequest_eq_iff_gapSchema :
    ofRequest (gapSchema "1px") ⟨"a\x00b"⟩ {} ≠ ofRequest (gapSchema "2px") ⟨"a\x00b"⟩ {} := by
  have hs : Decoder.ofText Decoder.schema
      "\x7b\"id\":\"brand\",\"tokens\":\x7b\"primitive\":\x7b\"gap\":\"1px\"\x7d\x7d\x7d" =
        .ok (gapSchema "1px") := by cbv
  have hs' : Decoder.ofText Decoder.schema
      "\x7b\"id\":\"brand\",\"tokens\":\x7b\"primitive\":\x7b\"gap\":\"2px\"\x7d\x7d\x7d" =
        .ok (gapSchema "2px") := by cbv
  have hhash : Blake3.digest (content (gapSchema "1px") ⟨"a\x00b"⟩ {}) ≠
      Blake3.digest (content (gapSchema "2px") ⟨"a\x00b"⟩ {}) := by decide +kernel
  have hwidth : gapSchema "1px" ≠ gapSchema "2px" := by simp [gapSchema]
  intro hkey
  exact hwidth (((ofRequest_eq_iff hs hs' _ _ {} {}).2 fun h => absurd h hhash).1 hkey).1

end DesignSystem.CacheKey
