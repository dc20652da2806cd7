import KeyService.Http.Uri
import KeyService.Proofs.Exchange.Endpoint
import KeyService.Proofs.Http.Naming

/-! Texts that are no address.
What cannot be read as an address is taken for a path as it stands, so an endpoint accepts some
texts that are no address. A path without the slash in front is never an address, and it has the
same parts as the path: every path that an endpoint accepts gives it such a text. -/
namespace KeyService

namespace Http.Pattern

variable {cs front rest piece : List Char} {pieces : List (List Char)}

theorem cuts_front (inside : '/' ∉ front) (rest : List Char) :
    cuts (front ++ '/' :: rest) = front :: cuts rest :=
  List.splitOn_append_cons_self_of_not_mem inside rest

theorem cuts_single (inside : '/' ∉ cs) : cuts cs = [cs] := by
  have split := cuts_append cs inside []
  rw [List.append_nil] at split
  rw [split]
  simp [cuts]

theorem noSlash_of_mem_cuts (member : piece ∈ cuts cs) : '/' ∉ piece := by
  induction cs generalizing piece with
  | nil => simp_all [cuts]
  | cons c cs ih =>
    by_cases slash : c = '/'
    · subst slash
      rw [cuts_slash] at member
      rcases List.mem_cons.mp member with empty | later
      · simp [empty]
      · exact ih later
    · obtain ⟨head, more, cut⟩ := exists_cuts cs
      rw [cuts_cons slash, cut] at member
      simp only [List.modifyHead_cons, List.mem_cons] at member
      rcases member with grown | later
      · simp [grown, Ne.symm slash, ih (cut ▸ List.mem_cons_self)]
      · exact ih (cut ▸ List.mem_cons_of_mem _ later)

/-- A path without the slash in front of its first part, and with one behind its last. -/
def rootless (pieces : List (List Char)) : List Char := pieces.flatMap (· ++ ['/'])

theorem cuts_rootless (whole : ∀ piece ∈ pieces, '/' ∉ piece) :
    cuts (rootless pieces) = pieces ++ [[]] := by
  induction pieces with
  | nil => simp [rootless, cuts]
  | cons piece pieces ih =>
    obtain ⟨first, others⟩ := List.forall_mem_cons.mp whole
    have spelled : rootless (piece :: pieces) = piece ++ '/' :: rootless pieces := by
      simp [rootless]
    rw [spelled, cuts_front first, ih others, List.cons_append]

end Http.Pattern

namespace Http.Uri

open Pattern (cuts cuts_front cuts_single cuts_slash exists_cuts)

variable {cs front rest : List Char} {seen : Seen}

/-- A text with at least one slash, none of them in front or behind another. -/
def Relative (cs : List Char) : Prop := 1 < (cuts cs).length ∧ [] ∉ (cuts cs).dropLast

theorem Relative.slash (relative : Relative cs) : '/' ∈ cs := by
  by_contra inside
  have single := cuts_single inside
  simp [Relative, single] at relative

/-- Two slashes in a row have nothing between them. -/
theorem Relative.notDoubled (relative : Relative cs) (inside : '/' ∉ front) :
    cs ≠ front ++ '/' :: '/' :: rest := by
  intro doubled
  have cut : cuts cs = front :: [] :: cuts rest := by
    rw [doubled, cuts_front inside, cuts_slash]
  obtain ⟨head, more, cut'⟩ := exists_cuts rest
  apply relative.2
  simp [cut, cut']

theorem Relative.notRooted (relative : Relative cs) : cs ≠ '/' :: rest := by
  intro rooted
  obtain ⟨head, more, cut⟩ := exists_cuts rest
  apply relative.2
  simp [rooted, cuts_slash, cut]

/-- An authority goes on to the first character that ends one. -/
theorem rest_of_afterAuthority? (read : afterAuthority? seen cs = some rest) :
    rest = cs.dropWhile fun c => !endsAuthority c := by
  induction cs generalizing seen with
  | nil =>
    rw [afterAuthority?] at read
    split at read <;> simp_all
  | cons c cs ih =>
    rw [afterAuthority?] at read
    by_cases ends : endsAuthority c = true
    · rw [if_pos ends] at read
      split at read
      · simp [← Option.some.inj read, ends]
      · cases read
    · rw [if_neg ends] at read
      split at read
      · simp [ih read, ends]
      · cases read

theorem ofAuthority?_slash (slash : '/' ∈ cs) : ofAuthority? cs = none := by
  unfold ofAuthority?
  split
  · rename_i whole
    have none := List.dropWhile_eq_nil_iff.mp (rest_of_afterAuthority? whole).symm
    have ends := none '/' slash
    simp [endsAuthority] at ends
  · rfl

theorem eq_slash_of_toLower {c : Char} (lower : c.toLower = '/') : c = '/' := by
  unfold Char.toLower at lower
  split at lower
  · rename_i capital
    have least : 65 ≤ c.toNat := capital.1
    have most : c.toNat ≤ 90 := capital.2
    have number : (c.toNat + 32) % 4294967296 = 47 := by
      simpa using congrArg (fun c : Char => c.val.toNat) lower
    omega
  · exact lower

theorem doubled_of_lower {n : Nat} (letters : List Char) (inside : '/' ∉ letters)
    (lower : (cs.take n).map Char.toLower = letters ++ ['/', '/']) :
    ∃ front rest, '/' ∉ front ∧ cs = front ++ '/' :: '/' :: rest := by
  obtain ⟨front, slashes, cut, scheme, doubled⟩ := List.map_eq_append_iff.mp lower
  obtain ⟨c, others, rfl, first, rest⟩ := List.map_eq_cons_iff.mp doubled
  obtain ⟨d, none, rfl, second, ends⟩ := List.map_eq_cons_iff.mp rest
  obtain rfl := List.map_eq_nil_iff.mp ends
  obtain rfl := eq_slash_of_toLower first
  obtain rfl := eq_slash_of_toLower second
  refine ⟨front, cs.drop n, ?_, ?_⟩
  · intro member
    apply inside
    rw [← scheme]
    exact List.mem_map.mpr ⟨'/', member, rfl⟩
  · have whole := List.take_append_drop n cs
    rw [cut] at whole
    exact whole.symm.trans (by simp)

theorem Relative.afterScheme? (relative : Relative cs) : afterScheme? cs = some none := by
  have notSecure : (cs.take 8).map Char.toLower ≠ "https://".toList := by
    intro lower
    obtain ⟨front, rest, inside, doubled⟩ :=
      doubled_of_lower ['h', 't', 't', 'p', 's', ':'] (by decide) lower
    exact relative.notDoubled inside doubled
  have notPlain : (cs.take 7).map Char.toLower ≠ "http://".toList := by
    intro lower
    obtain ⟨front, rest, inside, doubled⟩ :=
      doubled_of_lower ['h', 't', 't', 'p', ':'] (by decide) lower
    exact relative.notDoubled inside doubled
  unfold Uri.afterScheme?
  rw [if_neg notPlain, if_neg notSecure]
  split
  · rename_i rest marked
    have inside : '/' ∉ cs.takeWhile isSchemeChar ++ [':'] := by
      intro member
      rcases List.mem_append.mp member with scheme | colon
      · have allowed := List.mem_takeWhile_imp scheme
        simp [isSchemeChar] at allowed
      · simp at colon
    have whole := List.takeWhile_append_dropWhile (p := isSchemeChar) (l := cs)
    rw [marked] at whole
    have doubled : cs = (cs.takeWhile isSchemeChar ++ [':']) ++ '/' :: '/' :: rest :=
      whole.symm.trans (by simp)
    exact absurd doubled (relative.notDoubled inside)
  · rfl

theorem parse?_relative (relative : Relative cs) : parse? (String.ofList cs) = none := by
  unfold parse?
  split
  · rfl
  · rw [String.toList_ofList]
    split
    · rfl
    · have slash := relative.slash
      simp at slash
    · exact absurd rfl relative.notRooted
    · split
      · exact ofAuthority?_slash relative.slash
      · rw [ofAddress?, relative.afterScheme?]
        exact ofAuthority?_slash relative.slash

end Http.Uri

namespace Exchange

open Http (Uri)
open Http.Pattern (cuts rootless cuts_rootless noSlash_of_mem_cuts)

/-- The path without its slash in front, spelled part by part. -/
def bare (path : String) : String :=
  String.ofList (rootless ((cuts path.toList).filter (· ≠ [])))

theorem cuts_bare (path : String) :
    cuts (bare path).toList = (cuts path.toList).filter (· ≠ []) ++ [[]] := by
  rw [bare, String.toList_ofList]
  apply cuts_rootless
  intro piece member
  exact noSlash_of_mem_cuts (List.mem_of_mem_filter member)

theorem segments_bare (path : String) : segments (bare path) = segments path := by
  apply segments_inj.mpr
  simp [cuts_bare]

theorem parse?_bare (path : String) : Uri.parse? (bare path) = none := by
  cases filled : (cuts path.toList).filter (· ≠ []) with
  | nil =>
    have empty : bare path = "" := by
      rw [bare, filled]
      rfl
    rw [empty]
    rfl
  | cons piece pieces =>
    rw [← String.ofList_toList (s := bare path)]
    apply Uri.parse?_relative
    rw [Uri.Relative, cuts_bare, List.dropLast_concat]
    constructor
    · rw [filled]
      simp
    · simp

namespace Endpoint

/-- What is promised of an endpoint and a text: it accepts an address if it accepts the path of the
address, and nothing else, and it says so of a text that is no address. -/
structure Promised (e : Endpoint) (url : String) : Prop where
  accepts : e.check url = .ok () ↔ ∃ uri, Uri.parse? url = some uri ∧ e.accepts uri.path = true
  refuses : Uri.parse? url = none → e.check url = .error (.endpointMismatch url e.pattern)

variable {e : Endpoint} {url : String}

theorem check_of_parse? {uri : Uri} (read : Uri.parse? url = some uri) :
    e.check url = if e.accepts uri.path then .ok ()
      else .error (.endpointMismatch uri.path e.pattern) := by
  simp only [check, pathOf, read]

theorem check_of_unread (unread : Uri.parse? url = none) :
    e.check url = if e.accepts url then .ok () else .error (.endpointMismatch url e.pattern) := by
  simp only [check, pathOf, unread]

theorem check_bare {path : String} (accepted : e.accepts path = true) :
    e.check (bare path) = .ok () := by
  have same : e.accepts (bare path) = true := by
    rw [Endpoint.accepts, segments_bare]
    exact accepted
  rw [check_of_unread (parse?_bare path), if_pos same]

theorem not_promised_bare {path : String} (accepted : e.accepts path = true) :
    ¬ e.Promised (bare path) := by
  intro promised
  have refused := promised.refuses (parse?_bare path)
  simp [check_bare accepted] at refused

/-- The promise is kept of a text exactly if the text is an address or no path that the endpoint
accepts. Every path that it accepts gives a text of which the promise is broken, so it is broken
at every endpoint. -/
theorem promised_iff (e : Endpoint) :
    (∀ url, e.Promised url ↔ (Uri.parse? url = none → e.accepts url = false)) ∧
      (∀ path, e.accepts path = true → ¬ e.Promised (bare path)) ∧ ∃ url, ¬ e.Promised url := by
  refine ⟨?_, fun _ => not_promised_bare, ?_⟩
  · intro url
    cases read : Uri.parse? url with
    | some uri =>
      have judged := check_of_parse? (e := e) read
      apply iff_of_true
      · constructor
        · cases fits : e.accepts uri.path <;> simp [judged, read, fits]
        · intro unread
          cases read.symm.trans unread
      · simp
    | none =>
      have judged := check_of_unread (e := e) read
      constructor
      · intro promised _
        by_contra fits
        have refused := promised.refuses read
        simp [judged, fits] at refused
      · intro stray
        have refused : e.check url = .error (.endpointMismatch url e.pattern) := by
          simp [judged, stray rfl]
        constructor
        · simp [refused, read]
        · intro _
          exact refused
  · have own : Describes (segments e.pattern) (segments e.pattern) :=
      .inl (List.forall₂_same.mpr fun _ _ => .inr rfl)
    exact ⟨bare e.pattern, not_promised_bare (matchSegments_iff.mpr own)⟩

/-- The path of an endpoint without its slash is no address, and it is accepted. -/
theorem rootless_accepted : Uri.parse? "security/negotiate" = none ∧
    (⟨"/security/negotiate"⟩ : Endpoint).check "security/negotiate" = .ok () := by
  decide

end Endpoint

end Exchange

end KeyService
