import KeyService.Json.Codec
import KeyService.Proofs.Json.Quoted

/-! Objects in JSON are read as they were written, in every layout.
A layout only puts blanks between the parts, and a reader passes over them. The members of
an object are read one after the other, each by the field of its name; then they are put
into the order of the fields. -/
namespace KeyService.Json

open Bytes

theorem skipSpace_blanks {bs : Bytes} (blank : ∀ b ∈ bs, isSpace b = true) (rest : Bytes) :
    skipSpace (bs ++ rest) = skipSpace rest := by
  induction bs with
  | nil => rfl
  | cons b bs ih =>
    rw [skipSpace, List.cons_append, List.dropWhile_cons_of_pos (blank b List.mem_cons_self)]
    exact ih fun b' member => blank b' (List.mem_cons_of_mem _ member)

theorem skipSpace_cons {b : UInt8} (visible : isSpace b = false) (rest : Bytes) :
    skipSpace (b :: rest) = b :: rest := List.dropWhile_cons_of_neg (by simp [visible])

theorem blank_ofChars {cs : List Char} (blank : ∀ c ∈ cs, c = '\n' ∨ c = ' ') :
    ∀ b ∈ ofChars cs, isSpace b = true := by
  intro b member
  obtain ⟨c, inside, encoded⟩ := List.mem_flatMap.mp member
  rcases blank c inside with rfl | rfl
  · rw [utf8EncodeChar_ascii (by decide), List.mem_singleton] at encoded
    rw [encoded]
    rfl
  · rw [utf8EncodeChar_ascii (by decide), List.mem_singleton] at encoded
    rw [encoded]
    rfl

theorem Layout.blank_lineBreak (layout : Layout) : ∀ c ∈ layout.lineBreak, c = '\n' ∨ c = ' ' := by
  intro c member
  cases layout with
  | compact => cases member
  | indented depth =>
    rcases List.mem_cons.mp member with rfl | spaces
    · exact .inl rfl
    · exact .inr (List.eq_of_mem_replicate spaces)

theorem Layout.blank_space (layout : Layout) : ∀ c ∈ layout.space, c = '\n' ∨ c = ' ' := by
  intro c member
  cases layout with
  | compact => cases member
  | indented depth => exact .inr (List.mem_singleton.mp member)

theorem skipSpace_lineBreak (layout : Layout) {b : UInt8} (visible : isSpace b = false)
    (rest : Bytes) : skipSpace (ofChars layout.lineBreak ++ b :: rest) = b :: rest := by
  rw [skipSpace_blanks (blank_ofChars layout.blank_lineBreak), skipSpace_cons visible]

/-- A number in front of these bytes does not go on into them. -/
def Ends (rest : Bytes) : Prop :=
  ∀ b, rest.head? = some b → isDigit b = false ∧ b ≠ 0x2E ∧ b ≠ 0x65 ∧ b ≠ 0x45

theorem ends_nil : Ends [] := by
  intro b none
  cases none

theorem ends_cons {b : UInt8} (ends : isDigit b = false ∧ b ≠ 0x2E ∧ b ≠ 0x65 ∧ b ≠ 0x45)
    (rest : Bytes) : Ends (b :: rest) := by
  intro b' same
  obtain rfl := Option.some.inj same
  exact ends

/-- Where a value is expected, what is written for `v` is read as `w`, whatever blanks stand
before it and whatever follows it, unless a number could go on there. -/
def Reads (read : Reader Json) (layout : Layout) (v w : Json) : Prop :=
  ∀ blanks rest, (∀ b ∈ blanks, isSpace b = true) → Ends rest →
    read (blanks ++ (ofChars (chars layout v) ++ rest)) = .ok (w, rest)

theorem reads_text (layout : Layout) (s : String) : Reads Reader.text layout (.text s) (.text s) := by
  intro blanks rest blank _
  rw [Reader.text, skipSpace_blanks blank, chars, ofChars_quote, List.cons_append,
    skipSpace_cons (by decide), List.append_assoc, List.singleton_append]
  simp only [textBody_flatMap_escape, Except.map]

/-- A member as it is written between its separator and the next one. -/
def memberChars (layout : Layout) (m : String × Json) : List Char :=
  layout.lineBreak ++ (quote m.1 ++ ':' :: layout.space ++ chars layout m.2)

theorem chars_object (layout : Layout) (m : String × Json) (ms : List (String × Json)) :
    chars layout (.object (m :: ms)) =
      '{' :: (memberChars layout.inner m ++ moreMembers layout ms) := by
  simp only [chars, memberChars, List.cons_append, List.append_assoc]

theorem moreMembers_cons (layout : Layout) (m : String × Json) (ms : List (String × Json)) :
    moreMembers layout (m :: ms) = ',' :: (memberChars layout.inner m ++ moreMembers layout ms) := by
  simp only [moreMembers, memberChars, List.cons_append, List.append_assoc]

theorem ends_moreMembers (layout : Layout) (ms : List (String × Json)) (rest : Bytes) :
    Ends (ofChars (moreMembers layout ms) ++ rest) := by
  cases ms with
  | nil =>
    cases layout with
    | compact => exact ends_cons (b := 0x7D) (by decide) rest
    | indented depth =>
      rw [moreMembers, Layout.lineBreak, List.cons_append, ofChars_ascii (by decide)]
      exact ends_cons (by decide) _
  | cons m ms =>
    rw [moreMembers_cons, ofChars_ascii (by decide)]
    exact ends_cons (by decide) _

theorem length_lt_moreMembers (layout : Layout) (ms : List (String × Json)) :
    ms.length < (ofChars (moreMembers layout ms)).length := by
  induction ms with
  | nil =>
    rw [moreMembers, ofChars_append, ofChars_ascii (by decide)]
    simp
  | cons m ms ih =>
    rw [moreMembers_cons, ofChars_ascii (by decide), ofChars_append]
    simp only [List.length_cons, List.length_append]
    omega

variable {fields : List Field} {got : List (String × Json)} {layout : Layout}

/-- The bytes `bs` begin with a member that one of the fields reads, and go on with `rest`. -/
inductive StartsWith (fields : List Field) (m : String × Json) (bs rest : Bytes) : Prop where
  | member {text colon after : Bytes} {field : Field} :
      skipSpace bs = 0x22 :: text → textBody text = .ok (m.1, colon) →
      skipSpace colon = 0x3A :: after → fields.find? (·.name = m.1) = some field →
      field.read after = .ok (m.2, rest) → StartsWith fields m bs rest

theorem members_first {m : String × Json} {bs rest : Bytes} (starts : StartsWith fields m bs rest)
    (new : got.lookup m.1 = none) (fuel : Nat) :
    members fields (fuel + 1) true got bs = members fields fuel false (m :: got) rest := by
  obtain @⟨text, _, _, _, quoted, named, colon, known, read⟩ := starts
  have again : skipSpace (0x22 :: text) = 0x22 :: text := skipSpace_cons (by decide) text
  simp [members, quoted, again, named, known, new, colon, read, bind, Except.bind]

theorem members_next {m : String × Json} {bs rest : Bytes} (starts : StartsWith fields m bs rest)
    (new : got.lookup m.1 = none) (fuel : Nat) :
    members fields (fuel + 1) false got (0x2C :: bs) =
      members fields fuel false (m :: got) rest := by
  obtain ⟨quoted, named, colon, known, read⟩ := starts
  have comma : skipSpace (0x2C :: bs) = 0x2C :: bs := skipSpace_cons (by decide) bs
  simp [members, comma, quoted, named, known, new, colon, read, bind, Except.bind]

theorem members_end {bs rest : Bytes} (ended : skipSpace bs = 0x7D :: rest) (isFirst : Bool)
    (fuel : Nat) : members fields (fuel + 1) isFirst got bs = .ok (got, rest) := by
  simp only [members, ended]

/-- Every member has a field that reads what is written for it. -/
def Known (fields : List Field) (layout : Layout) (ms : List (String × Json)) : Prop :=
  ∀ m ∈ ms, ∃ field, fields.find? (·.name = m.1) = some field ∧ Reads field.read layout m.2 m.2

theorem Known.tail {m : String × Json} {ms : List (String × Json)}
    (known : Known fields layout (m :: ms)) : Known fields layout ms :=
  fun n member => known n (List.mem_cons_of_mem _ member)

theorem Known.startsWith {m : String × Json} {ms : List (String × Json)}
    (known : Known fields layout (m :: ms)) {rest : Bytes} (ends : Ends rest) :
    StartsWith fields m (ofChars (memberChars layout m) ++ rest) rest := by
  obtain ⟨field, named, reads⟩ := known m List.mem_cons_self
  let value := ofChars layout.space ++ (ofChars (chars layout m.2) ++ rest)
  have quoted : skipSpace (ofChars (memberChars layout m) ++ rest) =
      0x22 :: (ofChars (m.1.toList.flatMap escape) ++ 0x22 :: 0x3A :: value) := by
    simp only [memberChars, ofChars_append, ofChars_quote, List.append_assoc, List.cons_append,
      skipSpace_lineBreak layout (show isSpace 0x22 = false by decide)]
    rw [ofChars_ascii (by decide) (layout.space ++ _), ofChars_append]
    simp [value]
  exact .member quoted (textBody_flatMap_escape m.1 _) (skipSpace_cons (by decide) _) named
    (reads (ofChars layout.space) rest (blank_ofChars layout.blank_space) ends)

theorem new_cons {m : String × Json} {ms : List (String × Json)} (apart : m.1 ∉ ms.map Prod.fst)
    (new : ∀ n ∈ ms, got.lookup n.1 = none) : ∀ n ∈ ms, List.lookup n.1 (m :: got) = none := by
  intro n member
  have other : (n.1 == m.1) = false := by
    rw [beq_eq_false_iff_ne]
    intro same
    exact apart (same ▸ List.mem_map_of_mem member)
  rw [List.lookup_cons, other]
  exact new n member

theorem members_written {ms : List (String × Json)} (known : Known fields layout.inner ms)
    (distinct : (ms.map Prod.fst).Nodup) (new : ∀ m ∈ ms, got.lookup m.1 = none) {fuel : Nat}
    (enough : ms.length < fuel) (rest : Bytes) :
    members fields fuel false got (ofChars (moreMembers layout ms) ++ rest) =
      .ok (ms.reverse ++ got, rest) := by
  induction ms generalizing got fuel with
  | nil =>
    obtain ⟨fuel, rfl⟩ := Nat.exists_eq_add_of_lt enough
    rw [moreMembers, ofChars_append, ofChars_ascii (by decide), List.append_assoc]
    exact members_end (skipSpace_lineBreak layout (by decide) _) false _
  | cons m ms ih =>
    obtain ⟨fuel, rfl⟩ : ∃ n, fuel = n + 1 := ⟨fuel - 1, by omega⟩
    obtain ⟨apart, distinct⟩ := List.nodup_cons.mp distinct
    have read := members_next (known.startsWith (ends_moreMembers layout ms rest))
      (new m List.mem_cons_self) fuel
    rw [moreMembers_cons, ofChars_ascii (by decide), ofChars_append, List.cons_append,
      List.append_assoc]
    refine read.trans ?_
    rw [ih known.tail distinct (new_cons apart fun n member => new n (List.mem_cons_of_mem _ member))
      (Nat.lt_of_succ_lt_succ enough)]
    simp

theorem reads_record {ms all : List (String × Json)} (known : Known fields layout.inner ms)
    (distinct : (ms.map Prod.fst).Nodup) (ordered : inOrder ms.reverse fields = .ok all) :
    Reads (Reader.record fields) layout (.object ms) (.object all) := by
  intro blanks rest blank _
  rw [Reader.record, skipSpace_blanks blank]
  cases ms with
  | nil =>
    have opened : ofChars (chars layout (.object [])) = [0x7B, 0x7D] := rfl
    have ended : ∀ fuel, members fields (fuel + 1) true [] (0x7D :: rest) = .ok ([], rest) :=
      members_end (skipSpace_cons (by decide) rest) true
    rw [List.reverse_nil] at ordered
    rw [opened, List.cons_append, skipSpace_cons (by decide)]
    simp only [List.cons_append, List.nil_append, ended, ordered, bind, Except.bind, pure,
      Except.pure]
  | cons m ms =>
    obtain ⟨apart, distinct⟩ := List.nodup_cons.mp distinct
    have new : ∀ n ∈ ms, List.lookup n.1 [m] = none := new_cons apart fun _ _ => rfl
    have starts := known.startsWith (ends_moreMembers layout ms rest)
    have enough : ms.length < (ofChars (memberChars layout.inner m) ++
        (ofChars (moreMembers layout ms) ++ rest)).length := by
      have := length_lt_moreMembers layout ms
      simp only [List.length_append]
      omega
    have others := members_written known.tail distinct new enough rest
    rw [List.reverse_cons] at ordered
    rw [chars_object, ofChars_ascii (by decide), List.cons_append, skipSpace_cons (by decide),
      ofChars_append, List.append_assoc]
    change (members fields _ true [] _ >>= _) = _
    rw [(members_first starts rfl _).trans others]
    simp only [bind, Except.bind, ordered, pure, Except.pure]

/-- What is written begins with a sign that is no blank and begins no null. -/
def Shows (layout : Layout) (v : Json) : Prop :=
  ∃ b bs, ofChars (chars layout v) = b :: bs ∧ isSpace b = false ∧ b ≠ 0x6E

theorem shows_text (layout : Layout) (s : String) : Shows layout (.text s) :=
  ⟨0x22, _, by rw [chars, ofChars_quote], by decide, by decide⟩

theorem shows_object (layout : Layout) (m : String × Json) (ms : List (String × Json)) :
    Shows layout (.object (m :: ms)) :=
  ⟨0x7B, _, by rw [chars_object, ofChars_ascii (by decide)]; rfl, by decide, by decide⟩

theorem reads_optional {read : Reader Json} {v w : Json} (shows : Shows layout v)
    (reads : Reads read layout v w) : Reads (Reader.optional read) layout v w := by
  intro blanks rest blank ends
  obtain ⟨b, bs, same, visible, some⟩ := shows
  have inner := reads [] rest (by simp) ends
  rw [List.nil_append, same, List.cons_append] at inner
  rw [same, Reader.optional, skipSpace_blanks blank, List.cons_append, skipSpace_cons visible]
  split
  · rename_i null
    exact absurd (List.cons.inj null).1 some
  · exact inner

theorem Codec.read_written {α : Type} (c : Codec α) {a : α} {w : Json}
    (reads : Reads c.shape layout (c.write a) w) (made : c.make? w = some a) :
    c.read (Bytes.ofText (String.ofList (chars layout (c.write a)))) = .ok (a, []) := by
  have shape := reads [] [] (by simp) ends_nil
  rw [List.nil_append, List.append_nil] at shape
  rw [ofText_eq, String.toList_ofList]
  simp only [Codec.read, shape, made, bind, Except.bind]

theorem Codec.parse_written {α : Type} (c : Codec α) {a : α} {w : Json}
    (reads : Reads c.shape layout (c.write a) w) (made : c.make? w = some a) :
    c.parse (Bytes.ofText (String.ofList (chars layout (c.write a)))) = .ok a := by
  simp only [parse, c.read_written reads made, bind, Except.bind]
  rfl

/-- What a codec writes is never null, and is read as it was. -/
structure Codec.Lossless {α : Type} (c : Codec α) : Prop where
  shows : ∀ a, Shows .compact (c.write a)
  reads : ∀ a, Reads c.shape .compact (c.write a) (c.write a)
  makes : ∀ a, c.make? (c.write a) = some a

theorem Codec.Lossless.makes_some {α : Type} {c : Codec α} (lossless : c.Lossless) (a : α) :
    c.optional.make? (c.write a) = some (some a) := by
  have makes := lossless.makes a
  obtain ⟨b, bs, written, -, notNull⟩ := lossless.shows a
  generalize c.write a = v at makes written
  cases v with
  | null => exact absurd (List.cons.inj written).1.symm notNull
  | _ => exact congrArg (Option.map some) makes

theorem Codec.text_lossless : Codec.text.Lossless where
  shows := shows_text _
  reads := reads_text _
  makes _ := rfl

end KeyService.Json
