import ApexForensic.Support.JsonText
import ApexForensic.Support.PyValue

/-!
# The JSON text of a value

A value whose texts have a UTF-8 form has a JSON text, and no two of them
share one.  A double stands for itself by its bits.
-/

namespace ApexForensic.Support

/-- The character of a code point that is no surrogate. -/
def charOf (c : CodePoint) : Char := Char.ofNat c.val

theorem charOf_inj {a b : CodePoint} (ha : isSurrogate a = false)
    (hb : isSurrogate b = false) (h : charOf a = charOf b) : a = b := by
  have hvalid : ∀ c : CodePoint, isSurrogate c = false →
      (charOf c).toNat = c.val := by
    intro c hc
    rw [isSurrogate, decide_eq_false_iff_not, not_and, not_le] at hc
    have hchar : c.val.isValidChar := by
      rcases Nat.lt_or_ge c.val 0xD800 with h | h
      · exact Or.inl h
      · exact Or.inr ⟨hc h, c.isLt⟩
    rw [charOf, Char.ofNat, dif_pos hchar]
    rfl
  have htoNat := congrArg Char.toNat h
  rw [hvalid a ha, hvalid b hb] at htoNat
  exact Fin.ext htoNat

/-- The string of a text that has a UTF-8 form. -/
def PyStr.toString (s : PyStr) : String := String.ofList (s.map charOf)

theorem PyStr.toString_inj {s t : PyStr} (hs : s.encodable = true)
    (ht : t.encodable = true) (h : s.toString = t.toString) : s = t := by
  have hmap := String.ofList_injective h
  rw [PyStr.encodable, List.all_eq_true] at hs ht
  clear h
  induction s generalizing t with
  | nil => exact (List.map_eq_nil_iff.mp hmap.symm).symm
  | cons a s ih =>
      cases t with
      | nil => cases hmap
      | cons b t =>
          obtain ⟨hchar, hrest⟩ := List.cons.inj hmap
          rw [List.forall_mem_cons, Bool.not_eq_true'] at hs ht
          rw [charOf_inj hs.1 ht.1 hchar, ih hs.2 ht.2 hrest]

/-- A literal that stands for the double with these bits. -/
def doubleText (bits : UInt64) : FloatText :=
  ⟨Nat.toDigits 10 bits.toNat ++ ['.', '0'], by
    have hdigit : ∀ c ∈ Nat.toDigits 10 bits.toNat, c.isDigit = true :=
      fun c hc => Json.isDigit_of_mem_toDigits hc
    have hne : Nat.toDigits 10 bits.toNat ≠ [] := Nat.toDigits_ne_nil
    rw [isFloatText, Bool.and_eq_true, Bool.and_eq_true]
    refine ⟨⟨?_, ?_⟩, ?_⟩
    · cases hdigits : Nat.toDigits 10 bits.toNat with
      | nil => exact absurd hdigits hne
      | cons c cs =>
          have hc := hdigit c (hdigits ▸ List.mem_cons_self)
          simp [hc]
    · rw [List.all_append, Bool.and_eq_true, List.all_eq_true]
      refine ⟨fun c hc => ?_, by decide⟩
      rw [Json.not_isDelimiter_of_isDigit (hdigit c hc)]
      rfl
    · rw [List.any_append, Bool.or_eq_true]
      exact Or.inr (by decide)⟩

theorem doubleText_injective : Function.Injective doubleText := by
  intro a b h
  have htext := List.append_cancel_right (congrArg Subtype.val h)
  exact UInt64.toNat_inj.mp (Json.toDigits_inj htext)

namespace PyValue

mutual

def toJson : PyValue → Json
  | null => .null
  | bool b => .bool b
  | int n => .int n
  | float bits => .float (doubleText bits)
  | str s => .str s.toString
  | list items => .arr (itemsToJson items)
  | dict fields => .obj (fieldsToJson fields)

def itemsToJson : List PyValue → List Json
  | [] => []
  | v :: items => v.toJson :: itemsToJson items

def fieldsToJson : List (PyStr × PyValue) → List (String × Json)
  | [] => []
  | (k, v) :: fields => (k.toString, v.toJson) :: fieldsToJson fields

end

mutual

theorem toJson_inj : ∀ {v w : PyValue}, v.encodable = true →
    w.encodable = true → v.toJson = w.toJson → v = w
  | null, w, _, _, h => by cases w <;> first | rfl | cases h
  | bool b, w, _, _, h => by cases w <;> cases h; rfl
  | int n, w, _, _, h => by cases w <;> cases h; rfl
  | float bits, w, _, _, h => by
      cases w with
      | float bits' =>
          rw [toJson, toJson, Json.float.injEq] at h
          rw [doubleText_injective h]
      | _ => cases h
  | str s, w, hs, ht, h => by
      cases w with
      | str t =>
          rw [toJson, toJson, Json.str.injEq] at h
          rw [PyStr.toString_inj hs ht h]
      | _ => cases h
  | list items, w, hs, ht, h => by
      cases w with
      | list items' =>
          rw [toJson, toJson, Json.arr.injEq] at h
          rw [itemsToJson_inj hs ht h]
      | _ => cases h
  | dict fields, w, hs, ht, h => by
      cases w with
      | dict fields' =>
          rw [toJson, toJson, Json.obj.injEq] at h
          rw [fieldsToJson_inj hs ht h]
      | _ => cases h

theorem itemsToJson_inj : ∀ {items items' : List PyValue},
    itemsEncodable items = true → itemsEncodable items' = true →
      itemsToJson items = itemsToJson items' → items = items'
  | [], [], _, _, _ => rfl
  | [], _ :: _, _, _, h => nomatch h
  | _ :: _, [], _, _, h => nomatch h
  | v :: items, w :: items', hs, ht, h => by
      rw [itemsEncodable, Bool.and_eq_true] at hs ht
      obtain ⟨hhead, htail⟩ := List.cons.inj h
      rw [toJson_inj hs.1 ht.1 hhead, itemsToJson_inj hs.2 ht.2 htail]

theorem fieldsToJson_inj : ∀ {fields fields' : List (PyStr × PyValue)},
    fieldsEncodable fields = true → fieldsEncodable fields' = true →
      fieldsToJson fields = fieldsToJson fields' → fields = fields'
  | [], [], _, _, _ => rfl
  | [], _ :: _, _, _, h => nomatch h
  | _ :: _, [], _, _, h => nomatch h
  | (k, v) :: fields, (k', w) :: fields', hs, ht, h => by
      rw [fieldsEncodable, Bool.and_eq_true, Bool.and_eq_true] at hs ht
      obtain ⟨hhead, htail⟩ := List.cons.inj h
      obtain ⟨hkey, hvalue⟩ := Prod.mk.inj hhead
      rw [PyStr.toString_inj hs.1.1 ht.1.1 hkey,
        toJson_inj hs.1.2 ht.1.2 hvalue, fieldsToJson_inj hs.2 ht.2 htail]

end

/-- The bytes of the JSON text of a value. -/
def textBytes (v : PyValue) : List UInt8 :=
  (String.ofList v.toJson.render).toUTF8.data.toList

theorem textBytes_inj {v w : PyValue} (hv : v.encodable = true)
    (hw : w.encodable = true) (h : v.textBytes = w.textBytes) : v = w := by
  have hbytes := Array.toList_inj.mp h
  have htext : String.ofList v.toJson.render =
      String.ofList w.toJson.render := by
    apply String.toByteArray_inj.mp
    exact ByteArray.ext hbytes
  exact toJson_inj hv hw (Json.render_injective (String.ofList_injective htext))

end PyValue

end ApexForensic.Support
