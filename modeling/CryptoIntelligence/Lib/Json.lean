/-
  Compact JSON texts, as a library writes them: of the writer only the lengths are assumed. A string
  without escapes takes its bytes and two more, a number its digits, and arrays and objects add one
  byte for every element and two around them.
-/
import CryptoIntelligence.Lib.Numerals

namespace CryptoIntelligence.Lib

open List

/-! ## The writer -/

/-- A byte that is written as it is. -/
def isPlain (b : UInt8) : Bool := decide (32 ≤ b) && b != 34 && b != 92

/-- The texts of values; arrays and objects are given the texts of their parts. -/
class JsonWriter where
  jsonNull : Bytes
  jsonNat : Nat → Bytes
  jsonInt : Int → Bytes
  jsonString : Bytes → Bytes
  jsonArray : List Bytes → Bytes
  jsonObject : List (String × Bytes) → Bytes
  jsonNull_length_le : jsonNull.length ≤ 4
  jsonNat_length_le {n width : Nat} : 0 < width → n < 10 ^ width → (jsonNat n).length ≤ width
  jsonInt_length_le {n : Int} {width : Nat} :
    0 < width → n.natAbs < 10 ^ width → (jsonInt n).length ≤ width + 1
  jsonString_length_le {s : Bytes} :
    (∀ b ∈ s, isPlain b = true) → (jsonString s).length ≤ s.length + 2
  jsonArray_length_le (items : List Bytes) :
    (jsonArray items).length ≤ 2 + (items.map fun item => item.length + 1).sum
  jsonObject_length_le (fields : List (String × Bytes)) :
    (∀ field ∈ fields, ∀ b ∈ text field.1, isPlain b = true) →
      (jsonObject fields).length ≤
        2 + (fields.map fun field => (text field.1).length + 4 + field.2.length).sum

section Lengths

open JsonWriter

variable [JsonWriter]

def jsonOption {α : Type} (write : α → Bytes) : Option α → Bytes
  | none => jsonNull
  | some value => write value

theorem jsonOption_length_le {α : Type} {write : α → Bytes} {value : Option α} {bound : Nat}
    (hnull : 4 ≤ bound) (h : ∀ v ∈ value, (write v).length ≤ bound) :
    (jsonOption write value).length ≤ bound := by
  cases value with
  | none => exact jsonNull_length_le.trans hnull
  | some v => exact h v rfl

/-- The bytes an object adds to the texts of its values depend on its keys alone. -/
theorem jsonObject_length_le_add {fields : List (String × Bytes)} (overhead : Nat)
    (hplain : ((fields.map Prod.fst).all fun key => (text key).all isPlain) = true)
    (hkeys : ((fields.map Prod.fst).map fun key => (text key).length + 4).sum + 2 ≤ overhead) :
    (jsonObject fields).length ≤ overhead + (fields.map fun field => field.2.length).sum := by
  have hfields := jsonObject_length_le fields fun field hfield =>
    all_eq_true.mp (all_eq_true.mp hplain field.1 (mem_map_of_mem hfield))
  rw [sum_map_add] at hfields
  rw [map_map] at hkeys
  simp only [Function.comp_def] at hkeys
  omega

end Lengths

/-- Texts of values within bounds. -/
theorem sum_length_le_of_bounds {fields : List (String × Bytes)} (bounds : List Nat)
    (h : Forall₂ (fun field bound => field.2.length ≤ bound) fields bounds) :
    (fields.map fun field => field.2.length).sum ≤ bounds.sum := by
  induction h with
  | nil => exact le_rfl
  | cons hfield _ ih => exact Nat.add_le_add hfield ih

/-! ## A writer -/

def commaSeparated (items : List Bytes) : Bytes := (items.flatMap (· ++ [44])).dropLast

theorem commaSeparated_length_le (items : List Bytes) :
    (commaSeparated items).length ≤ (items.map fun item => item.length + 1).sum := by
  simp only [commaSeparated, length_dropLast, length_flatMap, length_append, length_singleton]
  omega

namespace PlainJson

/-- A writer for strings without escapes. -/
scoped instance plainJson : JsonWriter where
  jsonNull := text "null"
  jsonNat := decimal
  jsonInt n := if n < 0 then 45 :: decimal n.natAbs else decimal n.natAbs
  jsonString s := [34] ++ s ++ [34]
  jsonArray items := [91] ++ commaSeparated items ++ [93]
  jsonObject fields := [123] ++ commaSeparated (fields.map fun field =>
    [34] ++ text field.1 ++ [34, 58] ++ field.2) ++ [125]
  jsonNull_length_le := by decide
  jsonNat_length_le := decimal_length_le
  jsonInt_length_le := by
    intro n width hwidth h
    have hdigits := decimal_length_le hwidth h
    split_ifs
    · rw [length_cons]
      omega
    · omega
  jsonString_length_le := by
    intro s _
    simp only [length_append, length_singleton]
    omega
  jsonArray_length_le := by
    intro items
    have hitems := commaSeparated_length_le items
    simp only [length_append, length_singleton]
    omega
  jsonObject_length_le := by
    intro fields _
    have hitems := commaSeparated_length_le
      (fields.map fun field => [34] ++ text field.1 ++ [34, 58] ++ field.2)
    have hlength : (fun field : String × Bytes =>
        ([34] ++ text field.1 ++ [34, 58] ++ field.2).length + 1) =
          fun field => (text field.1).length + 4 + field.2.length := by
      funext field
      simp only [length_append, length_cons, length_nil]
      omega
    rw [map_map, Function.comp_def, hlength] at hitems
    simp only [length_append, length_singleton]
    omega

end PlainJson

end CryptoIntelligence.Lib
