import KeyService.Proofs.Http.Spelling

/-! Which paths are patterns, and when two of them are the same pattern.
Both can be told from the pieces between slashes. A colon in a piece has a name behind it, up to
the end of the piece; what the name is says nothing about the paths that fit. -/
namespace KeyService.Http.Pattern

variable {cs ds : List Char} {p q : Pattern} {c last : Char}

theorem cuts_cons (notSlash : c ≠ '/') (cs : List Char) :
    cuts (c :: cs) = (cuts cs).modifyHead (c :: ·) :=
  cuts_append [c] (by simpa using notSlash.symm) cs

theorem exists_cuts (cs : List Char) : ∃ front more, cuts cs = front :: more := by
  obtain ⟨front, more, same⟩ := List.exists_cons_of_ne_nil (List.splitOn_ne_nil '/' cs)
  exact ⟨front, more, same⟩

/-- There is no second colon in the piece, and something stands behind the first. -/
def Sober (piece : List Char) : Prop := piece.count ':' ≤ 1 ∧ piece.getLast? ≠ some ':'

instance (piece : List Char) : Decidable (Sober piece) :=
  inferInstanceAs (Decidable (_ ∧ _))

theorem sober_colon {name : List Char} : Sober (':' :: name) ↔ name ≠ [] ∧ ':' ∉ name := by
  rw [Sober, List.count_cons_self, ← List.count_eq_zero]
  constructor
  · rintro ⟨single, ends⟩
    refine ⟨?_, by omega⟩
    rintro rfl
    exact ends rfl
  · rintro ⟨some, none⟩
    refine ⟨by omega, fun ends => ?_⟩
    rw [List.getLast?_cons_of_ne_nil some] at ends
    exact List.count_eq_zero.mp none (List.mem_of_getLast? ends)

theorem sober_cons {front : List Char} (notColon : c ≠ ':') : Sober (c :: front) ↔ Sober front := by
  rw [Sober, Sober, List.count_cons_of_ne notColon]
  cases front with
  | nil => simpa using notColon
  | cons d front => rw [List.getLast?_cons_cons]

/-- What tokens make of a text without asterisks, and of the rest of a text in the middle of a
name. -/
theorem tokens?_isSome (plain : '*' ∉ cs) {front : List Char} {more : List (List Char)}
    (cut : cuts cs = front :: more) :
    (∀ last, (tokens? last cs).isSome ↔ Sober front ∧ ∀ piece ∈ more, Sober piece) ∧
      ∀ seen, (tokens?.name? .segment seen cs).isSome ↔
        (0 < seen ∨ front ≠ []) ∧ ':' ∉ front ∧ ∀ piece ∈ more, Sober piece := by
  induction cs generalizing front more with
  | nil =>
    obtain ⟨rfl, rfl⟩ := List.cons.inj cut
    refine ⟨fun last => by simp [tokens?, Sober], fun seen => ?_⟩
    cases seen <;> simp [tokens?.name?]
  | cons c cs ih =>
    obtain ⟨notAsterisk, plain⟩ := not_or.mp (mt List.mem_cons.mpr plain)
    obtain ⟨front', more', cut'⟩ := exists_cuts cs
    obtain ⟨tokens, names⟩ := ih plain cut'
    by_cases slash : c = '/'
    · subst slash
      rw [cuts_slash, cut'] at cut
      obtain ⟨rfl, rfl⟩ := List.cons.inj cut
      have rest (last : Char) : (tokens? last cs).isSome ↔ ∀ piece ∈ front' :: more', Sober piece := by
        rw [tokens, List.forall_mem_cons]
      refine ⟨fun last => ?_, fun seen => ?_⟩
      · rw [tokens?, if_neg (by decide), if_neg (by decide), Option.isSome_map, rest]
        exact (and_iff_right (by decide)).symm
      · rw [tokens?.name?, if_pos rfl]
        by_cases none : seen = 0
        · simp [none]
        · simp [none, rest, Nat.pos_of_ne_zero none]
    · rw [cuts_cons slash, cut'] at cut
      obtain ⟨rfl, rfl⟩ := List.cons.inj cut
      refine ⟨fun last => ?_, fun seen => ?_⟩
      · rw [tokens?]
        by_cases colon : c = ':'
        · subst colon
          rw [if_pos rfl, names, sober_colon, and_assoc]
          simp
        · rw [if_neg colon, if_neg (Ne.symm notAsterisk), Option.isSome_map, tokens, sober_cons colon]
      · rw [tokens?.name?, if_neg slash]
        by_cases colon : c = ':'
        · simp [colon]
        · simp [colon, Ne.symm notAsterisk, Ne.symm colon, names]

theorem count_of_tokens? (plain : '*' ∉ cs) :
    (∀ last p, tokens? last cs = some p → p.count .segment = cs.count ':') ∧
      ∀ seen p, tokens?.name? .segment seen cs = some p → p.count .segment = cs.count ':' + 1 := by
  induction cs with
  | nil =>
    refine ⟨fun last p read => ?_, fun seen p read => ?_⟩
    · obtain rfl := Option.some.inj read
      rfl
    · rw [tokens?.name?] at read
      split at read
      · cases read
      · obtain rfl := Option.some.inj read
        rfl
  | cons c cs ih =>
    obtain ⟨notAsterisk, plain⟩ := not_or.mp (mt List.mem_cons.mpr plain)
    obtain ⟨tokens, names⟩ := ih plain
    refine ⟨fun last p read => ?_, fun seen p read => ?_⟩
    · rw [tokens?] at read
      split at read
      · rename_i colon
        rw [colon, List.count_cons_self]
        exact names 0 p read
      · rename_i notColon
        rw [if_neg (Ne.symm notAsterisk)] at read
        obtain ⟨more, rest, rfl⟩ := Option.map_eq_some_iff.mp read
        rw [List.count_cons_of_ne (by simp), List.count_cons_of_ne notColon]
        exact tokens c more rest
    · rw [tokens?.name?] at read
      split at read
      · rename_i slash
        subst slash
        split at read
        · cases read
        · obtain ⟨more, rest, rfl⟩ := Option.map_eq_some_iff.mp read
          rw [List.count_cons_self, List.count_cons_of_ne (by simp), List.count_cons_of_ne (by decide),
            tokens _ more rest]
      · split at read
        · cases read
        · rename_i plainName
          rw [List.count_cons_of_ne (by simpa using (not_or.mp (by simpa using plainName)).1)]
          exact names _ p read

/-- A path that the router can take for a pattern. -/
structure WellNamed (path : String) : Prop where
  sober : ∀ piece ∈ cuts path.toList, Sober piece
  few : path.toList.count ':' ≤ maxNames

theorem parse?_isSome {path : String} (absolute : Text.startsWith path "/" = true)
    (plain : '*' ∉ path.toList) : (parse? path).isSome ↔ WellNamed path := by
  obtain ⟨cs, same⟩ : ∃ cs, path.toList = '/' :: cs := by
    obtain ⟨cs, same⟩ := List.isPrefixOf_iff_prefix.mp absolute
    exact ⟨cs, same.symm⟩
  rw [same] at plain
  have rest : '*' ∉ cs := fun member => plain (.tail _ member)
  obtain ⟨front, more, cut⟩ := exists_cuts cs
  obtain ⟨parsed, -⟩ := tokens?_isSome rest cut
  have pieces : (∀ piece ∈ cuts path.toList, Sober piece) ↔ (tokens? '/' cs).isSome := by
    rw [parsed, same, cuts_slash, cut]
    simp [show Sober [] by decide]
  have count : path.toList.count ':' = cs.count ':' := by
    rw [same, List.count_cons_of_ne (by decide)]
  have named : WellNamed path ↔ (tokens? '/' cs).isSome ∧ cs.count ':' ≤ maxNames :=
    ⟨fun named => ⟨pieces.mp named.sober, count ▸ named.few⟩,
      fun both => ⟨pieces.mpr both.1, count ▸ both.2⟩⟩
  rw [named]
  simp only [parse?, same]
  cases read : tokens? '/' cs with
  | none => simp
  | some p =>
    have segments := (count_of_tokens? rest).1 '/' p read
    simp [List.count_cons_of_ne, segments]

/-- What a piece says without its name. -/
def stem (piece : List Char) : List Char :=
  piece.takeWhile (· ≠ ':') ++ if ':' ∈ piece then [':'] else []

/-- A path without the names in it, piece by piece. -/
def shape (path : String) : List (List Char) := (cuts path.toList).map stem

/-- The text of a pattern without its names. -/
def plainText (p : Pattern) : List Char := p.map fun
  | .literal c => c
  | .segment => ':'
  | .rest => '*'

theorem stem_cons {front : List Char} (notColon : c ≠ ':') : stem (c :: front) = c :: stem front := by
  simp [stem, notColon, Ne.symm notColon]

theorem Spells.cuts_plainText (spells : Spells cs p) : cuts p.plainText = (cuts cs).map stem := by
  induction spells with
  | nil => rfl
  | @literal c cs p notColon _ ih =>
    change cuts (c :: p.plainText) = _
    by_cases slash : c = '/'
    · subst slash
      rw [cuts_slash, cuts_slash, ih]
      rfl
    · obtain ⟨front, more, cut⟩ := exists_cuts cs
      rw [cuts_cons slash, cuts_cons slash, ih, cut]
      exact congrArg (· :: _) (stem_cons notColon).symm
  | @segment name cs p inside ends _ ih =>
    change cuts (':' :: p.plainText) = _
    -- The name ends where its piece does.
    obtain ⟨more, cut⟩ : ∃ more, cuts cs = [] :: more := by
      cases cs with
      | nil => exact ⟨[], rfl⟩
      | cons c cs =>
        obtain rfl := ends c rfl
        exact ⟨_, cuts_slash cs⟩
    rw [cuts_cons (by decide), ih, cuts_append (':' :: name) (by simp [inside]), cut]
    simp [stem]

theorem plainText_inj (noColon : .literal ':' ∉ p) (noColon' : .literal ':' ∉ q) (noRest : .rest ∉ p)
    (noRest' : .rest ∉ q) : p.plainText = q.plainText ↔ p = q := by
  refine ⟨fun same => ?_, congrArg _⟩
  induction p generalizing q with
  | nil => exact (List.map_eq_nil_iff.mp same.symm).symm
  | cons token p ih =>
    cases q with
    | nil => cases same
    | cons token' q =>
      obtain ⟨head, tail⟩ := List.cons.inj same
      simp only [List.mem_cons, not_or] at noColon noColon' noRest noRest'
      rw [ih noColon.2 noColon'.2 noRest.2 noRest'.2 tail]
      congr 1
      cases token <;> cases token' <;> simp_all

theorem Spells.noRest (spells : Spells cs p) : .rest ∉ p := by
  induction spells with
  | nil => exact List.not_mem_nil
  | literal _ _ ih => simpa using ih
  | segment _ _ _ _ ih => simpa using ih

theorem clashes_iff (noRest : .rest ∉ p) (noRest' : .rest ∉ q) : p.clashes q = true ↔ p = q := by
  induction p generalizing q with
  | nil => cases q with
    | nil => simp [clashes]
    | cons token q => cases token <;> simp [clashes]
  | cons token p ih =>
    cases q with
    | nil => cases token <;> simp [clashes]
    | cons token' q =>
      simp only [List.mem_cons, not_or] at noRest noRest'
      cases token <;> cases token' <;> simp_all [clashes]

/-- Two texts cannot be in use together exactly if they differ in names only. -/
theorem clashes_iff_shape {path other : String} (plain : '*' ∉ path.toList)
    (plain' : '*' ∉ other.toList) (parsed : parse? path = some p) (parsed' : parse? other = some q) :
    p.clashes q = true ↔ shape path = shape other := by
  have spells := spells_of_parse? plain parsed
  have spells' := spells_of_parse? plain' parsed'
  rw [clashes_iff spells.noRest spells'.noRest, shape, shape, ← spells.cuts_plainText,
    ← spells'.cuts_plainText, ← plainText_inj (noColon_of_parse? parsed) (noColon_of_parse? parsed')
      spells.noRest spells'.noRest]
  exact cuts_inj.symm

end KeyService.Http.Pattern
