import KeyService.Http.Message
import KeyService.Proofs.Bytes.Base64
import KeyService.Proofs.Text.Utf8
import KeyService.Text.Uuid

/-! Texts that can be values of headers.
A value is read as text if it consists of the visible characters of seven bits and blanks,
and these are one byte each. So are all signs of base64 and of identifiers. -/
namespace KeyService.Text

open Bytes (ofChars ofText)

def Visible (s : String) : Prop := ∀ c ∈ s.toList, 0x20 ≤ c.toNat ∧ c.toNat < 0x7F

variable {s : String}

theorem ofText_of_visible (visible : Visible s) :
    ofText s = s.toList.map fun c => UInt8.ofNat c.toNat := by
  rw [Bytes.ofText_eq]
  unfold Visible at visible
  generalize s.toList = cs at visible
  induction cs with
  | nil => rfl
  | cons c cs ih =>
    have small : c.toNat < 128 := Nat.lt_trans (visible c List.mem_cons_self).2 (by decide)
    rw [Bytes.ofChars_ascii small, ih fun d member => visible d (.tail _ member), List.map_cons]

theorem length_ofText (visible : Visible s) : (ofText s).length = s.toList.length := by
  rw [ofText_of_visible visible, List.length_map]

theorem text?_ofText (visible : Visible s) : Http.Headers.text? (ofText s) = some s := by
  have printable : (ofText s).all (fun b => b == 9 || (0x20 ≤ b && b < 0x7F)) = true := by
    rw [ofText_of_visible visible, List.all_map, List.all_eq_true]
    intro c member
    obtain ⟨low, high⟩ := visible c member
    have value : (UInt8.ofNat c.toNat).toNat = c.toNat := by
      rw [UInt8.toNat_ofNat']
      omega
    simp only [Function.comp, Bool.or_eq_true, Bool.and_eq_true, decide_eq_true_eq,
      UInt8.le_iff_toNat_le, UInt8.lt_iff_toNat_lt, value]
    exact .inr ⟨low, high⟩
  rw [Http.Headers.text?, if_pos printable, Bytes.text?_ofText]

theorem visible_symbol : ∀ f ∈ [Base64.standard, Base64.urlSafe], ∀ v < 64,
    0x20 ≤ (f.symbol v).toNat ∧ (f.symbol v).toNat < 0x7F := by decide

theorem visible_encode {f : Base64.Form} (known : f ∈ [Base64.standard, Base64.urlSafe])
    (bs : Bytes) : Visible (f.encode bs) :=
  Base64.Form.forall_mem_encode (visible_symbol f known) (by decide)

theorem length_encode {f : Base64.Form} (known : f ∈ [Base64.standard, Base64.urlSafe])
    (bs : Bytes) : (ofText (f.encode bs)).length =
      if f.padded then 4 * ((bs.length + 2) / 3) else (4 * bs.length + 2) / 3 := by
  rw [length_ofText (visible_encode known bs), Base64.Form.encode, String.toList_ofList,
    Base64.Form.length_encodeChars]

theorem visible_hexDigit : ∀ n < 16, 0x20 ≤ (Bytes.hexDigit n).toNat ∧
    (Bytes.hexDigit n).toNat < 0x7F := by decide

theorem visible_hex (bs : Bytes) : Visible (Bytes.hex bs) := by
  intro c member
  rw [Bytes.hex, String.toList_ofList] at member
  obtain ⟨b, -, digit⟩ := List.mem_flatMap.mp member
  have small := b.toNat_lt
  simp only [List.mem_cons, List.not_mem_nil, or_false] at digit
  rcases digit with rfl | rfl
  · exact visible_hexDigit _ (by omega)
  · exact visible_hexDigit _ (by omega)

theorem visible_append {s t : String} (first : Visible s) (second : Visible t) :
    Visible (s ++ t) := by
  intro c member
  rw [String.toList_append] at member
  rcases List.mem_append.mp member with member | member
  · exact first c member
  · exact second c member

theorem visible_uuid (random : Bytes) : Visible (uuid random) := by
  have dash : Visible "-" := by
    intro c member
    obtain rfl : c = '-' := by simpa using member
    decide
  have join {s t : String} (first : Visible s) (second : Visible t) : Visible (s ++ "-" ++ t) :=
    visible_append (visible_append first dash) second
  have spelled (a b c d e : String) : String.intercalate "-" [a, b, c, d, e] =
      a ++ "-" ++ b ++ "-" ++ c ++ "-" ++ d ++ "-" ++ e := rfl
  rw [uuid, spelled]
  exact join (join (join (join (visible_hex _) (visible_hex _)) (visible_hex _)) (visible_hex _))
    (visible_hex _)

end KeyService.Text
