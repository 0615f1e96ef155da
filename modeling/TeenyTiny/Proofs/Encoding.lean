import TeenyTiny.Text.Utf8

/-! UTF-8 spells different characters differently. -/
namespace TeenyTiny.Text

theorem encode_toByteArray (cs : List Char) : (encode cs).toByteArray = cs.utf8Encode := by
  simp [encode,List.utf8Encode]

/-- Bytes that spell characters spell only these. -/
theorem encode_injective {cs ds : List Char} (h : encode cs = encode ds) : cs = ds := by
  have hb : cs.utf8Encode = ds.utf8Encode := by
    rw [← encode_toByteArray,← encode_toByteArray,h]
  have hd := congrArg ByteArray.utf8Decode? hb
  simpa only [List.utf8Decode?_utf8Encode,Option.some.injEq,Array.mk.injEq] using hd

@[simp] theorem encode_inj {cs ds : List Char} : encode cs = encode ds ↔ cs = ds :=
  ⟨encode_injective,fun h => h ▸ rfl⟩

end TeenyTiny.Text
