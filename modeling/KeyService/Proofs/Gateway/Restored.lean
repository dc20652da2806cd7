import KeyService.Proofs.Gateway.Echo
import KeyService.Proofs.Gateway.Handlers
import KeyService.Proofs.LocalText.Opened

/-! Texts that are encrypted by one request and decrypted by another.
A gateway that has encrypted a text decrypts it at any time afterwards, to the same characters, if
the ciphertext can be posted at all. Requests of both kinds are held to one limit, and a ciphertext
is longer than its text. So the longest of the texts that are encrypted do not come back. -/
namespace KeyService.Gateway

open Http (Request Response)
open LocalText.Scheme (searchableLength)

variable {S : Suite} {g g' g'' : Gateway} {r r' : Request} {path text whole : String}
  {events : List Event} {response : Response}

structure Posts (r : Request) (path text : String) : Prop where
  method : r.method = "POST"
  target : r.target.path = path
  body : r.body = Bytes.ofText text

/-- An answer of success, with a text for its data. -/
structure Hands (response : Response) (text : String) : Prop where
  status : response.status = 200
  data : (Envelope.codec Json.Codec.text).parse response.body = .ok (.success text)

theorem Posts.notHead (posts : Posts r path text) : r.method ≠ "HEAD" := by
  rw [posts.method]
  decide

theorem hands_answer {x : Except Failure String} :
    Hands (answer Json.Codec.text x) text ↔ x = .ok text := by
  cases x with
  | error e => exact iff_of_false (fun hands => e.service.status_ne_ok hands.status) nofun
  | ok data =>
    have parsed := parse_body_success Json.Codec.text_lossless data
    constructor
    · rintro ⟨-, told⟩
      have envelopes := Except.ok.inj (parsed.symm.trans told)
      rw [Option.some.inj (congrArg Envelope.data envelopes)]
    · intro same
      obtain rfl := Except.ok.inj same
      exact ⟨rfl, parsed⟩

theorem hands_presented (notHead : r.method ≠ "HEAD") :
    Hands (presented r response) text ↔ Hands response text := by
  have status := status_presented r response
  have body := body_presented_of_whole notHead response
  exact ⟨fun hands => ⟨status ▸ hands.status, body ▸ hands.data⟩,
    fun hands => ⟨status.trans hands.status, body.symm ▸ hands.data⟩⟩

theorem contentText_long (long : maxContent < r.body.length) :
    ∃ u, contentText r = .error u ∧ u.status = 413 := by
  rw [contentText, content, if_pos long]
  exact ⟨_, rfl, rfl⟩

theorem Lasts.built {responder : Exchange.Responder} {cipher : LocalText.Cipher}
    {negotiationPath publicKeyPath : String} (lasts : Lasts g g')
    (built : ofPaths responder cipher negotiationPath publicKeyPath = .ok g) :
    ofPaths responder g'.cipher negotiationPath publicKeyPath = .ok g' := by
  obtain ⟨router, routes, rfl⟩ := ofPaths_ok.mp built
  exact ofPaths_ok.mpr ⟨router, routes, lasts.same.symm⟩

theorem inside_of_hands (given : (handle S g r).Gives events (response, g'))
    (hands : Hands response whole) : g.isStray r = false := by
  cases stray : g.isStray r with
  | false => rfl
  | true =>
    obtain ⟨refused, idle, status, -⟩ := handle_of_stray (S := S) stray
    rw [idle] at given
    obtain ⟨-, same⟩ := Program.gives_pure.mp given
    obtain ⟨rfl, -⟩ := Prod.mk.inj same
    exact nomatch hands.status.symm.trans status

theorem encrypts_of_hands (reached : g.dispatch? r = some .localEncrypt) (posts : Posts r path text)
    (given : (handle S g r).Gives events (response, g')) (hands : Hands response whole) :
    (g.cipher.encrypt S text).Gives events (.ok whole, g'.cipher) := by
  obtain ⟨inner, served, rfl⟩ := (gives_handle reached).mp given
  have handed := (hands_presented posts.notHead).mp hands
  obtain ⟨⟨_, cipher'⟩, done, same⟩ := Program.gives_bind_pure.mp served
  obtain ⟨rfl, rfl⟩ := Prod.mk.inj same
  rcases Nat.lt_or_ge maxContent r.body.length with long | fits
  · obtain ⟨u, unread, status⟩ := contentText_long long
    simp only [localEncrypt, unread] at done
    obtain ⟨-, same⟩ := Program.gives_pure.mp done
    obtain ⟨rfl, -⟩ := Prod.mk.inj same
    exact nomatch handed.status.symm.trans status
  · simp only [localEncrypt, contentText_ok posts.body fits] at done
    obtain ⟨⟨result, _⟩, encrypted, same⟩ := Program.gives_bind_pure.mp done
    obtain ⟨rfl, rfl⟩ := Prod.mk.inj same
    obtain rfl := Attempt.mapError_ok.mp (hands_answer.mp handed)
    exact encrypted

theorem hands_of_encrypts {cipher : LocalText.Cipher} (reached : g.dispatch? r = some .localEncrypt)
    (posts : Posts r path text) (fits : r.body.length ≤ maxContent)
    (encrypted : (g.cipher.encrypt S text).Gives events (.ok whole, cipher)) :
    ∃ response, (handle S g r).Gives events (response, { g with cipher }) ∧ Hands response whole := by
  have served : (serve S g r .localEncrypt).Gives events
      (answer Json.Codec.text (.ok whole), { g with cipher }) := by
    simp only [serve, localEncrypt, contentText_ok posts.body fits, bind_assoc, pure_bind]
    exact Program.gives_bind_pure.mpr ⟨_, encrypted, rfl⟩
  exact ⟨_, (gives_handle reached).mpr ⟨_, served, rfl⟩,
    (hands_presented posts.notHead).mpr (hands_answer.mpr rfl)⟩

/-- A ciphertext that the cipher opens is decrypted without asking anybody, unless it is too long to
be read. -/
theorem decrypts_of_opens (reached : g.dispatch? r = some .localDecrypt) (posts : Posts r path whole)
    (opens : g.cipher.Opens whole text) (trimmed : Text.trim whole = whole) :
    ∃ response, handle S g r = pure (response, g) ∧
      (Hands response text ↔ (Bytes.ofText whole).length ≤ maxContent) ∧
      (response.status = 413 ↔ maxContent < (Bytes.ofText whole).length) := by
  have length : r.body.length = (Bytes.ofText whole).length := congrArg List.length posts.body
  rw [← length, handle_of_dispatch reached]
  rcases Nat.lt_or_ge maxContent r.body.length with long | fits
  · obtain ⟨u, unread, status⟩ := contentText_long long
    have served : serve S g r .localDecrypt = pure (u.response, g) := by
      simp only [serve, localDecrypt, unread, pure_bind]
    have refused : (presented r u.response).status = 413 := (status_presented r _).trans status
    refine ⟨presented r u.response, by rw [served, pure_bind], ?_, iff_of_true refused long⟩
    refine iff_of_false (fun hands => ?_) (Nat.not_le.mpr long)
    exact absurd (hands.status.symm.trans refused) (by decide)
  · have served : serve S g r .localDecrypt = pure (answer Json.Codec.text (.ok text), g) := by
      simp only [serve, localDecrypt, contentText_ok posts.body fits, trimmed,
        LocalText.Cipher.decrypt_of_opens opens, pure_bind]
      rfl
    have hands : Hands (presented r (answer Json.Codec.text (.ok text))) text :=
      (hands_presented posts.notHead).mpr (hands_answer.mpr rfl)
    refine ⟨presented r (answer Json.Codec.text (.ok text)), by rw [served, pure_bind],
      iff_of_true hands fits, iff_of_false (fun refused => ?_) (Nat.not_lt.mpr fits)⟩
    exact absurd (hands.status.symm.trans refused) (by decide)

/-- The longest text, in bytes, that comes back. -/
def maxRestored : Nat := 1572847

theorem searchableLength_le_iff (n : Nat) : searchableLength n ≤ maxContent ↔ n ≤ maxRestored := by
  unfold searchableLength maxContent maxRestored
  omega

/-- What holds of a gateway once it has handed out a ciphertext. -/
structure Restores (g : Gateway) (whole text : String) : Prop where
  opens : g.cipher.Opens whole text
  trimmed : Text.trim whole = whole
  length : (Bytes.ofText whole).length = searchableLength (Bytes.ofText text).length

theorem Restores.later (restores : Restores g whole text) (lasts : Lasts g g') :
    Restores g' whole text := ⟨restores.opens.later lasts.cipher, restores.trimmed, restores.length⟩

variable {responder : Exchange.Responder} {cipher : LocalText.Cipher}
  {negotiationPath publicKeyPath : String}
  (built : ofPaths responder cipher negotiationPath publicKeyPath = .ok g)

include built

theorem dispatch?_of_posts {route : Route} (starless : Http.Pattern.Starless path)
    (planned : (path, route) ∈ Router.plan negotiationPath publicKeyPath)
    (takes : "POST" ∈ route.methods) (posts : Posts r path text) (inside : g.isStray r = false) :
    g.dispatch? r = some route := by
  obtain rfl := posts.target
  exact dispatch?_of_inside built planned starless (posts.method ▸ takes) inside

theorem restores_of_hands (inverts : S.AesInverts) (standard : cipher.Standard S)
    (encrypts : Posts r "/local/encrypt" text)
    (given : (handle S g r).Gives events (response, g')) (hands : Hands response whole) :
    Restores g' whole text := by
  have reached : g.dispatch? r = some .localEncrypt :=
    dispatch?_of_posts built (by decide) (by simp [Router.plan]) (List.mem_singleton_self _) encrypts
      (inside_of_hands given hands)
  have encrypted := encrypts_of_hands reached encrypts given hands
  obtain ⟨router, -, rfl⟩ := ofPaths_ok.mp built
  obtain ⟨_, _, _, -, -, -, written⟩ :=
    LocalText.Cipher.searchable_of_encrypt standard.searchable encrypted
  exact ⟨LocalText.Cipher.opens_of_encrypt inverts standard.searchable encrypted,
    LocalText.Scheme.trim_searchable written, LocalText.Scheme.length_searchable written⟩

theorem decrypts_of_restores (restores : Restores g whole text)
    (decrypts : Posts r "/local/decrypt" whole) (inside : g.isStray r = false) :
    ∃ response, handle S g r = pure (response, g) ∧
      (Hands response text ↔ (Bytes.ofText text).length ≤ maxRestored) ∧
      (response.status = 413 ↔ maxRestored < (Bytes.ofText text).length) := by
  have reached : g.dispatch? r = some .localDecrypt :=
    dispatch?_of_posts built (by decide) (by simp [Router.plan]) (List.mem_singleton_self _) decrypts
      inside
  obtain ⟨response, done, restored, refused⟩ :=
    decrypts_of_opens (S := S) reached decrypts restores.opens restores.trimmed
  rw [restores.length, searchableLength_le_iff] at restored
  rw [restores.length, ← Nat.not_le, searchableLength_le_iff, Nat.not_le] at refused
  exact ⟨response, done, restored, refused⟩

/-- A gateway with the standard schemes, which has handed out a ciphertext, gives the text back when
the ciphertext is posted, whatever it has done meanwhile, exactly if the text is not too long. If it
is, the ciphertext is refused. -/
theorem restored_iff (inverts : S.AesInverts) (standard : cipher.Standard S)
    (encrypts : Posts r "/local/encrypt" text)
    (given : (handle S g r).Gives events (response, g')) (hands : Hands response whole)
    (lasts : Lasts g' g'') (decrypts : Posts r' "/local/decrypt" whole)
    (inside : g''.isStray r' = false) :
    ∃ response', handle S g'' r' = pure (response', g'') ∧
      (Hands response' text ↔ (Bytes.ofText text).length ≤ maxRestored) ∧
      (response'.status = 413 ↔ maxRestored < (Bytes.ofText text).length) := by
  have restores := restores_of_hands built inverts standard encrypts given hands
  exact decrypts_of_restores (((handle_lasts given).trans lasts).built built)
    (restores.later lasts) decrypts inside

omit built

section

open LocalText (Cipher Record)
open LocalText.Scheme (standard)

/-- A cipher that was just started. -/
def fresh : Cipher := .ofSchemes "app" [1, 2] (standard Suite.standard)

theorem serves_fresh : fresh.Serves Suite.standard (fun _ => True) "app" [1, 2] fun _ => none :=
  LocalText.Fleet.serves_ofSchemes
    ⟨LocalText.Scheme.fits_standard fun _ _ => trivial, fun _ => ⟨rfl, rfl⟩⟩

theorem hands_fresh (built : ofPaths Exchange.Small.responder fresh "/exchange" "/key" = .ok g)
    (fits : (Bytes.ofText text).length ≤ maxContent) :
    ∃ r events response g' whole, Posts r "/local/encrypt" text ∧
      (handle Suite.standard g r).Gives events (response, g') ∧ Hands response whole := by
  let r : Request := ⟨"POST", ⟨"/local/encrypt", none⟩, [], Bytes.ofText text⟩
  have posts : Posts r "/local/encrypt" text := ⟨rfl, rfl, rfl⟩
  have reached : g.dispatch? r = some .localEncrypt :=
    dispatch?_of_posts built (by decide) (by simp [Router.plan]) (List.mem_singleton_self _) posts rfl
  let h : Table (String × String) Record × Exchange.Host (Table String KeyPair) :=
    (.empty, ⟨0, .empty, .empty⟩)
  obtain ⟨events, whole, cipher, _, encrypted, -⟩ := Cipher.encrypt_fresh (s := h)
    (c := fun _ => none) (w := Exchange.Host.answer KeyPair.Backend.memory Exchange.Small.chance)
    LocalText.Backend.memory_keepsFirst (serves_fresh.own rfl).2.searchable serves_fresh.fits
    (LocalText.Cipher.locked_ofSchemes _ _ _) trivial (fun _ _ => rfl) rfl text
  obtain ⟨router, -, rfl⟩ := ofPaths_ok.mp built
  obtain ⟨response, given, hands⟩ := hands_of_encrypts reached posts fits encrypted
  exact ⟨r, events, response, _, whole, posts, given, hands⟩

/-- White space at both ends, and a character that nobody sees, come back. -/
theorem restored_standard : ∃ (g g' : Gateway) (r r' : Request) (events : List Event)
    (response response' : Response) (whole : String),
    ofPaths Exchange.Small.responder fresh "/exchange" "/key" = .ok g ∧
    Posts r "/local/encrypt" " a\t\x00\n" ∧
    (handle Suite.standard g r).Gives events (response, g') ∧ Hands response whole ∧
    Posts r' "/local/decrypt" whole ∧ handle Suite.standard g' r' = pure (response', g') ∧
    Hands response' " a\t\x00\n" := by
  obtain ⟨g, built⟩ := ofPaths_small Exchange.Small.responder fresh
  have short : (Bytes.ofText " a\t\x00\n").length ≤ maxRestored := by decide
  obtain ⟨r, events, response, g', whole, posts, given, hands⟩ :=
    hands_fresh built (Nat.le_trans short (by decide))
  let r' : Request := ⟨"POST", ⟨"/local/decrypt", none⟩, [], Bytes.ofText whole⟩
  have posts' : Posts r' "/local/decrypt" whole := ⟨rfl, rfl, rfl⟩
  obtain ⟨response', done, restored, -⟩ := restored_iff built Suite.standard_aesInverts
    (serves_fresh.own rfl).2 posts given hands (.refl g') posts' rfl
  exact ⟨g, g', r, r', events, response, response', whole, built, posts, given, hands, posts', done,
    restored.mpr short⟩

theorem length_run (n : Nat) :
    (Bytes.ofText (String.ofList (List.replicate n 'a'))).length = n := by
  have visible : Text.Visible (String.ofList (List.replicate n 'a')) := by
    intro c member
    rw [String.toList_ofList] at member
    obtain rfl := List.eq_of_mem_replicate member
    decide
  rw [Text.length_ofText visible, String.toList_ofList, List.length_replicate]

/-- A text of one byte more than comes back is encrypted, and its ciphertext is refused. -/
theorem long_text_refused : ∃ (g g' : Gateway) (r r' : Request) (events : List Event)
    (response response' : Response) (text whole : String),
    ofPaths Exchange.Small.responder fresh "/exchange" "/key" = .ok g ∧
    text = String.ofList (List.replicate 1572848 'a') ∧ Posts r "/local/encrypt" text ∧
    (handle Suite.standard g r).Gives events (response, g') ∧ Hands response whole ∧
    Posts r' "/local/decrypt" whole ∧ handle Suite.standard g' r' = pure (response', g') ∧
    response'.status = 413 ∧ ¬ Hands response' text := by
  obtain ⟨g, built⟩ := ofPaths_small Exchange.Small.responder fresh
  have length := length_run 1572848
  generalize String.ofList (List.replicate 1572848 'a') = text at length ⊢
  have fits : (Bytes.ofText text).length ≤ maxContent := by
    rw [length]
    decide
  have long : maxRestored < (Bytes.ofText text).length := by
    rw [length]
    decide
  obtain ⟨r, events, response, g', whole, posts, given, hands⟩ := hands_fresh built fits
  have restores := restores_of_hands built Suite.standard_aesInverts (serves_fresh.own rfl).2 posts
    given hands
  let r' : Request := ⟨"POST", ⟨"/local/decrypt", none⟩, [], Bytes.ofText whole⟩
  have posts' : Posts r' "/local/decrypt" whole := ⟨rfl, rfl, rfl⟩
  obtain ⟨response', done, restored, refused⟩ :=
    decrypts_of_restores ((handle_lasts given).built built) restores posts' rfl
  exact ⟨g, g', r, r', events, response, response', text, whole, built, rfl, posts, given, hands,
    posts', done, refused.mpr long, fun back => Nat.not_le.mpr long (restored.mp back)⟩

end

end KeyService.Gateway
