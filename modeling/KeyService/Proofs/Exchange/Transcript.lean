import KeyService.Exchange.Derivation
import KeyService.Proofs.Text.Pieces
import Std.Data.String.ToInt

/-! The signed transcript can be taken apart in one way only.
The fields stand between bars, without lengths or escapes, and the first of them is
chosen by the other side. The last five contain no bars, so the transcript is read from
its end, and what is left over is the first. -/
namespace KeyService.Exchange

def NoBar (s : String) : Prop := '|' ∉ s.toList

theorem last_field {a a' z z' : String} (noBar : NoBar z) (noBar' : NoBar z')
    (same : a ++ "|" ++ z = a' ++ "|" ++ z') : a = a' ∧ z = z' := by
  have lists := congrArg String.toList same
  simp only [String.toList_append, List.append_assoc] at lists
  obtain ⟨first, last⟩ := Text.cut_last noBar noBar' lists
  exact ⟨String.toList_inj.mp first, String.toList_inj.mp last⟩

theorem noBar_repr (n : Nat) : NoBar n.repr := by
  intro member
  rw [Nat.toList_repr] at member
  have digit := Nat.isDigit_of_mem_toDigits (by decide) (by decide) member
  exact absurd digit (by decide)

theorem noBar_nat (n : Nat) : NoBar (toString n) := by
  rw [Nat.toString_eq_repr]
  exact noBar_repr n

theorem noBar_int (n : Int) : NoBar (toString n) := by
  rw [Int.toString_eq_repr, Int.repr_eq_if]
  split
  · exact noBar_repr _
  · intro member
    rw [String.toList_append, List.mem_append] at member
    rcases member with member | member
    · exact absurd member (by decide)
    · exact noBar_repr _ member

theorem int64_of_text {a b : Int64} (same : toString a.toInt = toString b.toInt) : a = b := by
  rw [Int.toString_eq_repr, Int.toString_eq_repr, Int.repr_inj] at same
  exact Int64.toInt_inj.mp same

theorem word_of_text {a b : UInt16} (same : toString a.toNat = toString b.toNat) : a = b := by
  rw [Nat.toString_eq_repr, Nat.toString_eq_repr, Nat.repr_inj] at same
  exact UInt16.toNat_inj.mp same

theorem transcript_eq (id : String) (expireTime : Int64) (keyLength : UInt16)
    (initiatorKey responderKey token : String) :
    transcript id expireTime keyLength initiatorKey responderKey token =
      id ++ "|" ++ toString expireTime.toInt ++ "|" ++ toString keyLength.toNat ++ "|"
        ++ initiatorKey ++ "|" ++ responderKey ++ "|" ++ token := by
  simp [transcript, String.append_assoc]

/-- Equal transcripts have equal fields, if there are no bars in keys and tokens. -/
theorem transcript_fields {id id' initiatorKey initiatorKey' responderKey responderKey' token
    token' : String} {expireTime expireTime' : Int64} {keyLength keyLength' : UInt16}
    (noBar : NoBar initiatorKey ∧ NoBar responderKey ∧ NoBar token)
    (noBar' : NoBar initiatorKey' ∧ NoBar responderKey' ∧ NoBar token')
    (same : transcript id expireTime keyLength initiatorKey responderKey token =
      transcript id' expireTime' keyLength' initiatorKey' responderKey' token') :
    id = id' ∧ expireTime = expireTime' ∧ keyLength = keyLength' ∧ initiatorKey = initiatorKey' ∧
      responderKey = responderKey' ∧ token = token' := by
  rw [transcript_eq, transcript_eq] at same
  obtain ⟨same, tokens⟩ := last_field noBar.2.2 noBar'.2.2 same
  obtain ⟨same, responders⟩ := last_field noBar.2.1 noBar'.2.1 same
  obtain ⟨same, initiators⟩ := last_field noBar.1 noBar'.1 same
  obtain ⟨same, lengths⟩ := last_field (noBar_nat _) (noBar_nat _) same
  obtain ⟨ids, times⟩ := last_field (noBar_int _) (noBar_int _) same
  exact ⟨ids, int64_of_text times, word_of_text lengths, initiators, responders, tokens⟩

end KeyService.Exchange
