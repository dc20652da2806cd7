import KeyService.Bytes.Base64
import KeyService.Text.Blank

/-! Base64 texts have one spelling each.
A text is read as some bytes exactly if it is what is written for them. So a text that
is read has only the symbols of the alphabet and padding: no white space, and no bars. -/
namespace KeyService.Base64.Form

/-- Sixty-four symbols that can be told apart, none of them the padding. -/
structure Proper (f : Form) : Prop where
  value?_symbol : ∀ v < 64, f.value? (f.symbol v) = some v
  value?_pad : f.value? '=' = none

theorem standard_proper : standard.Proper := ⟨by decide, by decide⟩

theorem urlSafe_proper : urlSafe.Proper := ⟨by decide, by decide⟩

variable {f : Form}

theorem le_iff_toNat (c d : Char) : c ≤ d ↔ c.toNat ≤ d.toNat := by
  rw [Char.le_def, UInt32.le_iff_toNat_le]
  rfl

theorem symbol_of_value? {c : Char} {v : Nat} (known : f.value? c = some v) :
    v < 64 ∧ f.symbol v = c := by
  simp only [value?, le_iff_toNat] at known
  have a : 'A'.toNat = 65 := rfl
  have z : 'Z'.toNat = 90 := rfl
  have a' : 'a'.toNat = 97 := rfl
  have z' : 'z'.toNat = 122 := rfl
  have zero : '0'.toNat = 48 := rfl
  have nine : '9'.toNat = 57 := rfl
  split at known
  · cases known
    refine ⟨by omega, ?_⟩
    rw [symbol, if_pos (by omega), show 65 + (c.toNat - 65) = c.toNat by omega, Char.ofNat_toNat]
  · split at known
    · cases known
      refine ⟨by omega, ?_⟩
      rw [symbol, if_neg (by omega), if_pos (by omega),
        show 71 + (c.toNat - 71) = c.toNat by omega, Char.ofNat_toNat]
    · split at known
      · cases known
        refine ⟨by omega, ?_⟩
        rw [symbol, if_neg (by omega), if_neg (by omega), if_pos (by omega),
          Nat.add_sub_cancel, Char.ofNat_toNat]
      · split at known
        · cases known
          exact ⟨by decide, by simp_all [symbol]⟩
        · split at known
          · cases known
            exact ⟨by decide, by simp_all [symbol]⟩
          · cases known

theorem value?_iff (proper : f.Proper) {c : Char} {v : Nat} :
    f.value? c = some v ↔ v < 64 ∧ c = f.symbol v := by
  constructor
  · intro known
    obtain ⟨small, rfl⟩ := symbol_of_value? known
    exact ⟨small, rfl⟩
  · rintro ⟨small, rfl⟩
    exact proper.value?_symbol v small

theorem symbol_ne_pad (proper : f.Proper) {v : Nat} (small : v < 64) : f.symbol v ≠ '=' := by
  intro same
  have known := proper.value?_symbol v small
  rw [same, proper.value?_pad] at known
  cases known

def whole (f : Form) (a b c : UInt8) : List Char :=
  let n := (a.toNat * 256 + b.toNat) * 256 + c.toNat
  [f.symbol (n / 262144), f.symbol (n / 4096 % 64), f.symbol (n / 64 % 64), f.symbol (n % 64)]

def pair (f : Form) (a b : UInt8) : List Char :=
  let n := (a.toNat * 256 + b.toNat) * 4
  [f.symbol (n / 4096), f.symbol (n / 64 % 64), f.symbol (n % 64)]

def single (f : Form) (a : UInt8) : List Char :=
  [f.symbol (a.toNat * 16 / 64), f.symbol (a.toNat * 16 % 64)]

theorem encodeChars_single (a : UInt8) : f.encodeChars [a] = f.single a ++ f.padding 2 := rfl

theorem encodeChars_pair (a b : UInt8) : f.encodeChars [a, b] = f.pair a b ++ f.padding 1 := rfl

theorem encodeAfter_eq (f : Form) : ∀ (bs : Bytes) (done : List Char),
    f.encodeAfter done bs = done.reverse ++ f.encodeChars bs
  | [], done => by simp [encodeChars, encodeAfter]
  | [a], done => by simp [encodeChars, encodeAfter]
  | [a, b], done => by simp [encodeChars, encodeAfter]
  | a :: b :: c :: rest, done => by
    simp only [encodeChars, encodeAfter]
    rw [encodeAfter_eq f rest, encodeAfter_eq f rest (_ :: _)]
    simp

theorem encodeChars_whole (a b c : UInt8) (rest : Bytes) :
    f.encodeChars (a :: b :: c :: rest) = f.whole a b c ++ f.encodeChars rest := by
  rw [encodeChars, encodeAfter, encodeAfter_eq]
  simp only [List.reverse_cons, List.reverse_nil, List.nil_append, List.cons_append, whole]

theorem decodeAfter?_eq (f : Form) : ∀ (cs : List Char) (done : Bytes),
    f.decodeAfter? done cs = (f.decodeChars? cs).map (done.reverse ++ ·)
  | [], done => by simp [decodeChars?, decodeAfter?]
  | [p], done => by simp [decodeChars?, decodeAfter?]
  | [p, q], done => by
    simp only [decodeChars?, decodeAfter?]
    split <;> simp
  | [p, q, r], done => by
    simp only [decodeChars?, decodeAfter?]
    split <;> simp
  | p :: q :: r :: s :: rest, done => by
    simp only [decodeChars?, decodeAfter?]
    split
    · simp
    · split
      · rename_i head known
        rw [decodeAfter?_eq f rest, decodeAfter?_eq f rest (_ ++ [])]
        simp [Function.comp_def]
      · rfl

theorem threeBytes?_iff (proper : f.Proper) {p q r s : Char} {bs : Bytes} :
    f.threeBytes? p q r s = some bs ↔ ∃ a b c, bs = [a, b, c] ∧ [p, q, r, s] = f.whole a b c := by
  simp only [threeBytes?, Option.bind_eq_bind, Option.bind_eq_some_iff, value?_iff proper]
  constructor
  · rintro ⟨u, ⟨hu, rfl⟩, v, ⟨hv, rfl⟩, w, ⟨hw, rfl⟩, x, ⟨hx, rfl⟩, read⟩
    refine ⟨_, _, _, (Option.some.inj read).symm, ?_⟩
    simp only [whole, UInt8.toNat_ofNat']
    congr 1
    · congr 1; omega
    · congr 1
      · congr 1; omega
      · congr 1
        · congr 1; omega
        · congr 2; omega
  · rintro ⟨a, b, c, rfl, written⟩
    have := a.toNat_lt
    have := b.toNat_lt
    have := c.toNat_lt
    simp only [whole, List.cons.injEq, and_true] at written
    obtain ⟨hp, hq, hr, hs⟩ := written
    refine ⟨_, ⟨?_, hp⟩, _, ⟨?_, hq⟩, _, ⟨?_, hr⟩, _, ⟨?_, hs⟩, ?_⟩
    any_goals omega
    simp only [Option.some.injEq, List.cons.injEq, and_true]
    refine ⟨?_, ?_, ?_⟩ <;> apply UInt8.toNat_inj.mp <;> simp only [UInt8.toNat_ofNat'] <;> omega

theorem twoBytes?_iff (proper : f.Proper) {p q r : Char} {bs : Bytes} :
    f.twoBytes? p q r = some bs ↔ ∃ a b, bs = [a, b] ∧ [p, q, r] = f.pair a b := by
  simp only [twoBytes?, Option.bind_eq_bind, Option.bind_eq_some_iff, value?_iff proper,
    Option.ite_none_right_eq_some]
  constructor
  · rintro ⟨u, ⟨hu, rfl⟩, v, ⟨hv, rfl⟩, w, ⟨hw, rfl⟩, zeros, read⟩
    refine ⟨_, _, (Option.some.inj read).symm, ?_⟩
    simp only [pair, UInt8.toNat_ofNat']
    congr 1
    · congr 1; omega
    · congr 1
      · congr 1; omega
      · congr 2; omega
  · rintro ⟨a, b, rfl, written⟩
    have := a.toNat_lt
    have := b.toNat_lt
    simp only [pair, List.cons.injEq, and_true] at written
    obtain ⟨hp, hq, hr⟩ := written
    refine ⟨_, ⟨?_, hp⟩, _, ⟨?_, hq⟩, _, ⟨?_, hr⟩, ?_, ?_⟩
    any_goals omega
    simp only [Option.some.injEq, List.cons.injEq, and_true]
    refine ⟨?_, ?_⟩ <;> apply UInt8.toNat_inj.mp <;> simp only [UInt8.toNat_ofNat'] <;> omega

theorem oneByte?_iff (proper : f.Proper) {p q : Char} {bs : Bytes} :
    f.oneByte? p q = some bs ↔ ∃ a, bs = [a] ∧ [p, q] = f.single a := by
  simp only [oneByte?, Option.bind_eq_bind, Option.bind_eq_some_iff, value?_iff proper,
    Option.ite_none_right_eq_some]
  constructor
  · rintro ⟨u, ⟨hu, rfl⟩, v, ⟨hv, rfl⟩, zeros, read⟩
    refine ⟨_, (Option.some.inj read).symm, ?_⟩
    simp only [single, UInt8.toNat_ofNat']
    congr 1
    · congr 1; omega
    · congr 2; omega
  · rintro ⟨a, rfl, written⟩
    have := a.toNat_lt
    simp only [single, List.cons.injEq, and_true] at written
    obtain ⟨hp, hq⟩ := written
    refine ⟨_, ⟨?_, hp⟩, _, ⟨?_, hq⟩, ?_, ?_⟩
    any_goals omega
    simp only [Option.some.injEq, List.cons.injEq, and_true]
    apply UInt8.toNat_inj.mp
    simp only [UInt8.toNat_ofNat']
    omega

theorem decodeChars?_encodeChars (proper : f.Proper) : ∀ bs : Bytes,
    f.decodeChars? (f.encodeChars bs) = some bs
  | [] => rfl
  | [a] => by
    have read := (oneByte?_iff proper).mpr ⟨a, rfl, rfl⟩
    simp only [encodeChars_single, single, padding]
    cases padded : f.padded <;> simp [decodeChars?, decodeAfter?, padded, read]
  | [a, b] => by
    have read := (twoBytes?_iff proper).mpr ⟨a, b, rfl, rfl⟩
    have last := symbol_ne_pad proper (Nat.mod_lt ((a.toNat * 256 + b.toNat) * 4) (by decide : 0 < 64))
    simp only [encodeChars_pair, pair, padding]
    cases padded : f.padded <;> simp [decodeChars?, decodeAfter?, padded, read, last]
  | a :: b :: c :: rest => by
    have read := (threeBytes?_iff proper).mpr ⟨a, b, c, rfl, rfl⟩
    have last := symbol_ne_pad proper
      (Nat.mod_lt ((a.toNat * 256 + b.toNat) * 256 + c.toNat) (by decide : 0 < 64))
    rw [encodeChars_whole]
    simp only [whole, List.cons_append, List.nil_append, decodeChars?, decodeAfter?, last, and_false,
      if_false, read]
    rw [decodeAfter?_eq, decodeChars?_encodeChars proper rest]
    rfl

theorem eq_encodeChars (proper : f.Proper) : ∀ (cs : List Char) {bs : Bytes},
    f.decodeChars? cs = some bs → cs = f.encodeChars bs
  | [], bs, read => by
    cases read
    rfl
  | [p], bs, read => by cases read
  | [p, q], bs, read => by
    simp only [decodeChars?, decodeAfter?] at read
    split at read
    · cases read
    · rename_i bare
      simp only [List.reverse_nil, List.nil_append, Option.map_id'] at read
      obtain ⟨a, rfl, written⟩ := (oneByte?_iff proper).mp read
      simp [encodeChars_single, padding, bare, written]
  | [p, q, r], bs, read => by
    simp only [decodeChars?, decodeAfter?] at read
    split at read
    · cases read
    · rename_i bare
      simp only [List.reverse_nil, List.nil_append, Option.map_id'] at read
      obtain ⟨a, b, rfl, written⟩ := (twoBytes?_iff proper).mp read
      simp [encodeChars_pair, padding, bare, written]
  | p :: q :: r :: s :: rest, bs, read => by
    simp only [decodeChars?, decodeAfter?] at read
    split at read
    · rename_i last
      obtain ⟨ended, padded, rfl⟩ := last
      cases rest with
      | cons => cases ended
      | nil =>
        simp only [List.reverse_nil, List.nil_append, Option.map_id'] at read
        split at read
        · rename_i same
          subst same
          obtain ⟨a, rfl, written⟩ := (oneByte?_iff proper).mp read
          simp only [encodeChars_single, padding, padded, if_true, ← written]
          rfl
        · obtain ⟨a, b, rfl, written⟩ := (twoBytes?_iff proper).mp read
          simp only [encodeChars_pair, padding, padded, if_true, ← written]
          rfl
    · split at read
      · rename_i head known
        rw [decodeAfter?_eq, Option.map_eq_some_iff] at read
        obtain ⟨tail, more, rfl⟩ := read
        obtain ⟨a, b, c, rfl, written⟩ := (threeBytes?_iff proper).mp known
        have ih := eq_encodeChars proper rest more
        simp only [List.append_nil, List.reverse_reverse, List.cons_append, List.nil_append,
          encodeChars_whole, ← written, ← ih]
      · cases read

theorem decode?_iff (proper : f.Proper) {text : String} {bs : Bytes} :
    f.decode? text = some bs ↔ text = f.encode bs := by
  constructor
  · intro read
    rw [encode, ← eq_encodeChars proper _ read, String.ofList_toList]
  · rintro rfl
    rw [decode?, encode, String.toList_ofList, decodeChars?_encodeChars proper]

theorem decode?_encode (proper : f.Proper) (bs : Bytes) : f.decode? (f.encode bs) = some bs :=
  (decode?_iff proper).mpr rfl

theorem mem_padding {n : Nat} {c : Char} (member : c ∈ f.padding n) : c = '=' := by
  unfold padding at member
  split at member
  · exact List.eq_of_mem_replicate member
  · cases member

theorem mem_encodeChars {c : Char} : ∀ bs : Bytes, c ∈ f.encodeChars bs →
    (∃ v < 64, c = f.symbol v) ∨ c = '='
  | [], member => by cases member
  | [a], member => by
    have := a.toNat_lt
    rw [encodeChars_single] at member
    rcases List.mem_append.mp member with member | member
    · simp only [single, List.mem_cons, List.not_mem_nil, or_false] at member
      rcases member with rfl | rfl
      · exact .inl ⟨_, by omega, rfl⟩
      · exact .inl ⟨_, by omega, rfl⟩
    · exact .inr (mem_padding member)
  | [a, b], member => by
    have := a.toNat_lt
    have := b.toNat_lt
    rw [encodeChars_pair] at member
    rcases List.mem_append.mp member with member | member
    · simp only [pair, List.mem_cons, List.not_mem_nil, or_false] at member
      rcases member with rfl | rfl | rfl
      · exact .inl ⟨_, by omega, rfl⟩
      · exact .inl ⟨_, by omega, rfl⟩
      · exact .inl ⟨_, by omega, rfl⟩
    · exact .inr (mem_padding member)
  | a :: b :: c' :: rest, member => by
    have := a.toNat_lt
    have := b.toNat_lt
    have := c'.toNat_lt
    rw [encodeChars_whole] at member
    rcases List.mem_append.mp member with member | member
    · simp only [whole, List.mem_cons, List.not_mem_nil, or_false] at member
      rcases member with rfl | rfl | rfl | rfl
      · exact .inl ⟨_, by omega, rfl⟩
      · exact .inl ⟨_, by omega, rfl⟩
      · exact .inl ⟨_, by omega, rfl⟩
      · exact .inl ⟨_, by omega, rfl⟩
    · exact mem_encodeChars rest member

/-- What holds of the symbols and of the padding holds of all that stands in a text. -/
theorem forall_mem_encode {P : Char → Prop} {bs : Bytes} (symbols : ∀ v < 64, P (f.symbol v))
    (pad : P '=') : ∀ c ∈ (f.encode bs).toList, P c := by
  intro c member
  rw [encode, String.toList_ofList] at member
  rcases mem_encodeChars bs member with ⟨v, small, rfl⟩ | rfl
  · exact symbols v small
  · exact pad

theorem standard_symbol : ∀ v < 64,
    Text.isBlank (standard.symbol v) = false ∧ standard.symbol v ≠ '|' := by decide

theorem clean_encode {bs : Bytes} {c : Char} (member : c ∈ (standard.encode bs).toList) :
    Text.isBlank c = false ∧ c ≠ '|' :=
  forall_mem_encode (P := fun c => Text.isBlank c = false ∧ c ≠ '|') standard_symbol (by decide) c member

theorem urlSafe_symbol : ∀ v < 64,
    Text.isBlank (urlSafe.symbol v) = false ∧ urlSafe.symbol v ≠ '.' := by decide

theorem plain_encode {bs : Bytes} {c : Char} (member : c ∈ (urlSafe.encode bs).toList) :
    Text.isBlank c = false ∧ c ≠ '.' :=
  forall_mem_encode (P := fun c => Text.isBlank c = false ∧ c ≠ '.') urlSafe_symbol (by decide) c member

/-- A point is free to separate texts in the alphabet that is safe in names. -/
theorem pointless_encode (bs : Bytes) : '.' ∉ (urlSafe.encode bs).toList :=
  fun member => (plain_encode member).2 rfl

theorem urlSafe_flat : ∀ v < 64, urlSafe.symbol v ≠ '/' ∧ urlSafe.symbol v ≠ '\x00' := by decide

/-- Nor is anything written there that ends a component of a path. -/
theorem flat_encode {bs : Bytes} {c : Char} (member : c ∈ (urlSafe.encode bs).toList) :
    c ≠ '/' ∧ c ≠ '\x00' :=
  forall_mem_encode (P := fun c => c ≠ '/' ∧ c ≠ '\x00') urlSafe_flat (by decide) c member

/-- Each group of three bytes takes four symbols. A last group that is not whole takes as many if it
is padded, and one symbol more than it has bytes if it is not. -/
theorem length_encodeChars (f : Form) : ∀ bs : Bytes, (f.encodeChars bs).length =
    if f.padded then 4 * ((bs.length + 2) / 3) else (4 * bs.length + 2) / 3
  | [] => by cases padded : f.padded <;> rfl
  | [a] => by cases padded : f.padded <;> simp [encodeChars_single, single, padding, padded]
  | [a, b] => by cases padded : f.padded <;> simp [encodeChars_pair, pair, padding, padded]
  | a :: b :: c :: rest => by
    have whole : (f.whole a b c).length = 4 := rfl
    rw [encodeChars_whole, List.length_append, length_encodeChars f rest, whole]
    simp only [List.length_cons]
    split <;> omega

theorem encode_inj (proper : f.Proper) {bs bs' : Bytes} (same : f.encode bs = f.encode bs') :
    bs = bs' := by
  have read := decode?_encode proper bs
  rw [same, decode?_encode proper bs'] at read
  exact (Option.some.inj read).symm

end KeyService.Base64.Form
