import KeyService.Http.Pattern
import Mathlib.Data.List.Forall2
import Mathlib.Data.List.TakeWhile

/-! Paths that spell out a pattern.
The text of a pattern is a path itself. It fits its own pattern, and there no other pattern
goes first. A path that fits a pattern has its slashes where the pattern has them, so it
differs from the text of the pattern in what stands between them. -/
namespace KeyService.Http.Pattern

/-- A text whose pattern takes no rest of a path: what is not a name is literal. -/
inductive Spells : List Char → Pattern → Prop where
  | nil : Spells [] []
  | literal {c : Char} {cs : List Char} {p : Pattern} : c ≠ ':' → Spells cs p →
      Spells (c :: cs) (.literal c :: p)
  | segment (name : List Char) {cs : List Char} {p : Pattern} : '/' ∉ name → (∀ c ∈ cs.head?, c = '/') →
      Spells cs p → Spells (':' :: name ++ cs) (.segment :: p)

/-- What a path is cut into by its slashes. -/
def cuts (cs : List Char) : List (List Char) := cs.splitOn '/'

variable {cs ds : List Char} {p q : Pattern}

/-- A text that goes on in the middle of a name, which ends at a slash or at the end. -/
inductive Named : List Char → Pattern → Prop where
  | intro (name : List Char) {cs : List Char} {p : Pattern} : '/' ∉ name → (∀ c ∈ cs.head?, c = '/') →
      Spells cs p → Named (name ++ cs) (.segment :: p)

theorem spells_of_tokens? (plain : '*' ∉ cs) :
    (∀ last p, tokens? last cs = some p → Spells cs p) ∧
      ∀ seen p, tokens?.name? .segment seen cs = some p → Named cs p := by
  induction cs with
  | nil =>
    constructor
    · intro last p read
      rw [tokens?] at read
      obtain rfl := Option.some.inj read
      exact .nil
    · intro seen p read
      rw [tokens?.name?] at read
      split at read
      · cases read
      · obtain rfl := Option.some.inj read
        exact .intro [] (by simp) (by simp) .nil
  | cons c cs ih =>
    obtain ⟨notAsterisk, plain⟩ := not_or.mp (mt List.mem_cons.mpr plain)
    obtain ⟨tokens, names⟩ := ih plain
    constructor
    · intro last p read
      rw [tokens?] at read
      split at read
      · rename_i colon
        subst colon
        cases names 0 p read with
        | intro name inside ends spells => exact .segment name inside ends spells
      · rename_i notColon
        rw [if_neg (Ne.symm notAsterisk)] at read
        obtain ⟨more, rest, rfl⟩ := Option.map_eq_some_iff.mp read
        exact .literal notColon (tokens c more rest)
    · intro seen p read
      rw [tokens?.name?] at read
      split at read
      · rename_i slash
        split at read
        · cases read
        · obtain ⟨more, rest, rfl⟩ := Option.map_eq_some_iff.mp read
          subst slash
          exact .intro [] (by simp) (by simp) (.literal (by decide) (tokens _ more rest))
      · rename_i notSlash
        split at read
        · cases read
        · cases names _ p read with
          | intro name inside ends spells =>
            exact .intro (c :: name) (by simp [inside, Ne.symm notSlash]) ends spells

theorem spells_of_parse? {path : String} (plain : '*' ∉ path.toList)
    (parsed : parse? path = some p) : Spells path.toList p := by
  unfold parse? at parsed
  split at parsed
  · rename_i cs same
    rw [same] at plain ⊢
    obtain ⟨more, read, rfl⟩ := Option.map_eq_some_iff.mp (Option.filter_eq_some_iff.mp parsed).1
    have rest : '*' ∉ cs := fun member => plain (.tail _ member)
    exact .literal (by decide) ((spells_of_tokens? rest).1 '/' more read)
  · cases parsed

/-- Colons are signs, so no pattern takes one literally. -/
theorem noColon_of_tokens? :
    (∀ last p, tokens? last cs = some p → .literal ':' ∉ p) ∧
      ∀ token seen p, token ≠ .literal ':' → tokens?.name? token seen cs = some p →
        .literal ':' ∉ p := by
  induction cs with
  | nil =>
    constructor
    · intro last p read
      rw [tokens?] at read
      obtain rfl := Option.some.inj read
      exact List.not_mem_nil
    · intro token seen p sign read
      rw [tokens?.name?] at read
      split at read
      · cases read
      · obtain rfl := Option.some.inj read
        simpa using sign.symm
  | cons c cs ih =>
    obtain ⟨tokens, names⟩ := ih
    constructor
    · intro last p read
      rw [tokens?] at read
      split at read
      · exact names .segment 0 p nofun read
      · rename_i notColon
        split at read
        · split at read
          · exact names .rest 0 p nofun read
          · cases read
        · obtain ⟨more, rest, rfl⟩ := Option.map_eq_some_iff.mp read
          simpa [Ne.symm notColon] using tokens c more rest
    · intro token seen p sign read
      rw [tokens?.name?] at read
      split at read
      · split at read
        · cases read
        · obtain ⟨more, rest, rfl⟩ := Option.map_eq_some_iff.mp read
          simpa [sign.symm] using tokens '/' more rest
      · split at read
        · cases read
        · exact names token _ p sign read

theorem noColon_of_parse? {path : String} (parsed : parse? path = some p) : .literal ':' ∉ p := by
  unfold parse? at parsed
  split at parsed
  · obtain ⟨more, read, rfl⟩ := Option.map_eq_some_iff.mp (Option.filter_eq_some_iff.mp parsed).1
    simpa using noColon_of_tokens?.1 '/' more read
  · cases parsed

theorem takeWhile_segment (name : List Char) (inside : '/' ∉ name) (ends : ∀ c ∈ cs.head?, c = '/') :
    (name ++ cs).takeWhile (· ≠ '/') = name ∧ (name ++ cs).dropWhile (· ≠ '/') = cs := by
  have stays : ∀ c ∈ name, decide (c ≠ '/') = true := fun c member =>
    decide_eq_true fun same => inside (same ▸ member)
  rw [List.takeWhile_append_of_pos stays, List.dropWhile_append_of_pos stays]
  cases cs with
  | nil => simp
  | cons c cs =>
    obtain rfl := ends c rfl
    simp

theorem Spells.fits (spells : Spells cs p) : p.fits cs = true := by
  induction spells with
  | nil => rfl
  | literal _ _ ih => simpa [Pattern.fits] using ih
  | @segment name cs p inside ends _ ih =>
    obtain ⟨front, back⟩ := takeWhile_segment (':' :: name) (by simp [inside]) ends
    rw [Pattern.fits, front, back, ih]
    rfl

theorem clashes_comm (p q : Pattern) : p.clashes q = q.clashes p := by
  induction p generalizing q with
  | nil => cases q with
    | nil => rfl
    | cons token q => cases token <;> rfl
  | cons token p ih =>
    cases q with
    | nil => cases token <;> rfl
    | cons token' q =>
      cases token <;> cases token' <;> simp only [clashes, ih, eq_comm]

/-- A pattern that goes before another one, which does not go before it. -/
structure Before (p q : Pattern) : Prop where
  first : p.precedes q = true
  last : q.precedes p = false

/-- Of two patterns that the text of the first one fits, that one goes first, unless they cannot be
in use together. -/
theorem Spells.before (spells : Spells cs p) (fit : q.fits cs = true) (noColon : .literal ':' ∉ q)
    (apart : p.clashes q = false) : Before p q := by
  induction spells generalizing q with
  | nil =>
    cases q with
    | nil => cases apart
    | cons token q => cases token <;> simp [Pattern.fits] at fit
  | @literal c cs p _ _ ih =>
    cases q with
    | nil => simp [Pattern.fits] at fit
    | cons token q =>
      cases token with
      | literal d =>
        simp only [Pattern.fits, Bool.and_eq_true, decide_eq_true_eq] at fit
        obtain ⟨rfl, fit⟩ := fit
        simp only [clashes, decide_true, Bool.true_and] at apart
        obtain ⟨first, last⟩ := ih fit (fun member => noColon (.tail _ member)) apart
        exact ⟨by simpa [precedes] using first, by simpa [precedes] using last⟩
      | segment => exact ⟨rfl, rfl⟩
      | rest => exact ⟨rfl, rfl⟩
  | @segment name cs p inside ends _ ih =>
    cases q with
    | nil => simp [Pattern.fits] at fit
    | cons token q =>
      cases token with
      | literal d =>
        simp only [List.cons_append, Pattern.fits, Bool.and_eq_true, decide_eq_true_eq] at fit
        exact absurd (by simp [fit.1]) noColon
      | segment =>
        obtain ⟨-, back⟩ := takeWhile_segment (':' :: name) (by simp [inside]) ends
        rw [Pattern.fits, back, Bool.and_eq_true] at fit
        obtain ⟨first, last⟩ := ih fit.2 (fun member => noColon (.tail _ member)) apart
        exact ⟨first, last⟩
      | rest => cases apart

theorem Spells.eq_of_literal (spells : Spells cs p) (literal : ':' ∉ cs) (fit : p.fits ds = true) :
    ds = cs := by
  induction spells generalizing ds with
  | nil => simpa [Pattern.fits] using fit
  | @literal c cs p _ _ ih =>
    cases ds with
    | nil => simp [Pattern.fits] at fit
    | cons d ds =>
      simp only [Pattern.fits, Bool.and_eq_true, decide_eq_true_eq] at fit
      rw [fit.1, ih (fun member => literal (.tail _ member)) fit.2]
  | segment => exact absurd (by simp) literal

/-- Two paths have their empty segments in the same places. -/
def SameGaps : List (List Char) → List (List Char) → Prop := List.Forall₂ fun a b => a = [] ↔ b = []

theorem sameGaps_extend {l l' : List (List Char)} {a b : List Char} (gaps : SameGaps l l')
    (some : a ≠ []) (some' : b ≠ []) : SameGaps (l.modifyHead (a ++ ·)) (l'.modifyHead (b ++ ·)) := by
  cases gaps with
  | nil => exact .nil
  | cons _ rest => exact .cons (by simp [some, some']) rest

theorem cuts_append (name : List Char) (inside : '/' ∉ name) (cs : List Char) :
    cuts (name ++ cs) = (cuts cs).modifyHead (name ++ ·) := by
  induction name with
  | nil => cases h : cuts cs <;> simp [h]
  | cons c name ih =>
    obtain ⟨notSlash, inside⟩ := not_or.mp (mt List.mem_cons.mpr inside)
    have step := ih inside
    rw [cuts, List.splitOn_eq_splitOnP] at step ⊢
    rw [List.cons_append, List.splitOnP_cons_eq_if_modifyHead, if_neg (by simpa using Ne.symm notSlash), step]
    cases cuts cs <;> rfl

theorem cuts_inj : cuts cs = cuts ds ↔ cs = ds := by
  refine ⟨fun same => ?_, congrArg cuts⟩
  have joined := congrArg (List.intercalate ['/']) same
  rwa [cuts, cuts, List.intercalate_splitOn, List.intercalate_splitOn] at joined

theorem cuts_slash (cs : List Char) : cuts ('/' :: cs) = [] :: cuts cs := by
  simp only [cuts, List.splitOn_eq_splitOnP, List.splitOnP_cons_eq_if_modifyHead]
  simp

theorem mem_of_mem_cuts {c : Char} (piece : ds ∈ cuts cs) (member : c ∈ ds) : c ∈ cs := by
  induction cs generalizing ds with
  | nil =>
    obtain rfl := List.mem_singleton.mp piece
    cases member
  | cons d cs ih =>
    by_cases slash : d = '/'
    · subst slash
      rw [cuts_slash] at piece
      rcases List.mem_cons.mp piece with rfl | later
      · cases member
      · exact .tail _ (ih later member)
    · have inside : '/' ∉ [d] := by simpa using Ne.symm slash
      rw [← List.singleton_append, cuts_append [d] inside] at piece
      cases cut : cuts cs with
      | nil =>
        rw [cut] at piece
        cases piece
      | cons front more =>
        rw [cut] at piece ih
        rcases List.mem_cons.mp piece with rfl | later
        · rcases List.mem_cons.mp member with rfl | inner
          · exact List.mem_cons_self
          · exact .tail _ (ih List.mem_cons_self inner)
        · exact .tail _ (ih (.tail _ later) member)

theorem Spells.sameGaps (spells : Spells cs p) (fit : p.fits ds = true) :
    SameGaps (cuts cs) (cuts ds) := by
  induction spells generalizing ds with
  | nil =>
    have empty : ds = [] := by simpa [Pattern.fits] using fit
    rw [empty]
    exact .cons Iff.rfl .nil
  | @literal c cs p _ _ ih =>
    cases ds with
    | nil => simp [Pattern.fits] at fit
    | cons d ds =>
      simp only [Pattern.fits, Bool.and_eq_true, decide_eq_true_eq] at fit
      obtain ⟨rfl, fit⟩ := fit
      by_cases slash : c = '/'
      · subst slash
        rw [cuts_slash, cuts_slash]
        exact .cons Iff.rfl (ih fit)
      · have inside : '/' ∉ [c] := by simpa using Ne.symm slash
        rw [← List.singleton_append, cuts_append [c] inside, ← List.singleton_append (l := ds),
          cuts_append [c] inside]
        exact sameGaps_extend (ih fit) (by simp) (by simp)
  | @segment name cs p inside _ _ ih =>
    rw [Pattern.fits, Bool.and_eq_true, Bool.not_eq_true', List.isEmpty_eq_false_iff] at fit
    have outside : '/' ∉ ds.takeWhile (· ≠ '/') := fun member => by
      simpa using List.mem_takeWhile_imp member
    have parts := cuts_append _ outside (ds.dropWhile (· ≠ '/'))
    rw [List.takeWhile_append_dropWhile] at parts
    rw [cuts_append (':' :: name) (by simp [inside]), parts]
    exact sameGaps_extend (ih fit.2) (by simp) fit.1

theorem eq_of_sameGaps {l l' : List (List Char)} (gaps : SameGaps l l')
    (same : l.filter (· ≠ []) = l'.filter (· ≠ [])) : l = l' := by
  induction gaps with
  | nil => rfl
  | @cons a b l l' both _ ih =>
    by_cases empty : a = []
    · obtain rfl := both.mp empty
      subst empty
      simpa using ih (by simpa using same)
    · have full : b ≠ [] := fun empty' => empty (both.mpr empty')
      rw [List.filter_cons_of_pos (by simpa using empty),
        List.filter_cons_of_pos (by simpa using full)] at same
      obtain ⟨rfl, rest⟩ := List.cons.inj same
      rw [ih rest]

/-- A path that fits a pattern and has the segments of its text is that text. -/
theorem Spells.eq_of_segments (spells : Spells cs p) (fit : p.fits ds = true)
    (same : (cuts cs).filter (· ≠ []) = (cuts ds).filter (· ≠ [])) : ds = cs :=
  (cuts_inj.mp (eq_of_sameGaps (spells.sameGaps fit) same)).symm

end KeyService.Http.Pattern
