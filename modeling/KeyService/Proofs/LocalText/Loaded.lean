import KeyService.Proofs.LocalText.Calls
import Mathlib.Data.List.Forall2

/-! Keys that are loaded stay.
Whatever a cipher is used for, its schemes are the same afterwards, and those that had keys
have the same keys. -/
namespace KeyService.LocalText

variable {S : Suite} {appId : String} {secret : Bytes} {events : List Event}

/-- A slot and what becomes of it. -/
structure Slot.Stays (slot slot' : Slot) : Prop where
  scheme : slot'.scheme = slot.scheme
  keys : ∀ keys, slot.keys = some keys → slot'.keys = some keys

theorem Slot.Stays.refl (slot : Slot) : slot.Stays slot := ⟨rfl, fun _ loaded => loaded⟩

theorem Slot.Stays.trans {slot slot' slot'' : Slot} (first : slot.Stays slot')
    (second : slot'.Stays slot'') : slot.Stays slot'' :=
  ⟨second.scheme.trans first.scheme, fun keys loaded => second.keys keys (first.keys keys loaded)⟩

theorem Unlocks.stays {slot slot' : Slot} {answer : Except Error Keys}
    (unlocks : Unlocks S appId secret slot events answer slot') : slot.Stays slot' := by
  cases unlocks with
  | ready _ => exact .refl _
  | loaded empty _ => exact ⟨rfl, fun keys loaded => nomatch empty.symm.trans loaded⟩
  | failed _ _ => exact .refl _

abbrev StayIn : List Slot → List Slot → Prop := List.Forall₂ Slot.Stays

theorem stayIn_refl (slots : List Slot) : StayIn slots slots :=
  List.forall₂_same.mpr fun slot _ => .refl slot

theorem StayIn.trans {slots slots' slots'' : List Slot} (first : StayIn slots slots')
    (second : StayIn slots' slots'') : StayIn slots slots'' := by
  induction first generalizing slots'' with
  | nil => exact second
  | cons stays _ ih =>
    cases second with
    | cons stays' rest => exact .cons (stays.trans stays') (ih rest)

theorem StayIn.mem {slots slots' : List Slot} (stay : StayIn slots slots') {slot' : Slot}
    (member : slot' ∈ slots') : ∃ slot ∈ slots, slot.Stays slot' := by
  induction stay with
  | nil => exact absurd member List.not_mem_nil
  | cons stays _ ih =>
    rcases List.mem_cons.mp member with rfl | member
    · exact ⟨_, List.mem_cons_self, stays⟩
    · obtain ⟨slot, before, stays'⟩ := ih member
      exact ⟨slot, List.mem_cons_of_mem _ before, stays'⟩

namespace Cipher

structure Stays (cipher cipher' : Cipher) : Prop where
  appId : cipher'.appId = cipher.appId
  secret : cipher'.secret = cipher.secret
  slots : StayIn cipher.slots cipher'.slots

variable {cipher cipher' cipher'' : Cipher}

theorem Stays.refl (cipher : Cipher) : cipher.Stays cipher := ⟨rfl, rfl, stayIn_refl _⟩

theorem Stays.trans (first : cipher.Stays cipher') (second : cipher'.Stays cipher'') :
    cipher.Stays cipher'' :=
  ⟨second.appId.trans first.appId, second.secret.trans first.secret,
    StayIn.trans first.slots second.slots⟩

theorem Stays.isReady (stays : cipher.Stays cipher') (ready : cipher.isReady = true) :
    cipher'.isReady = true := by
  unfold Cipher.isReady at ready ⊢
  obtain ⟨-, -, slots⟩ := stays
  generalize cipher.slots = before at slots ready
  generalize cipher'.slots = after at slots
  induction slots with
  | nil => rfl
  | @cons slot slot' others others' stays _ ih =>
    rw [List.all_cons, Bool.and_eq_true] at ready ⊢
    obtain ⟨loaded, rest⟩ := ready
    obtain ⟨keys, known⟩ := Option.isSome_iff_exists.mp loaded
    exact ⟨Option.isSome_iff_exists.mpr ⟨keys, stays.keys keys known⟩, ih rest⟩

theorem Encrypts.stays {text : String} {answer : Except Error String}
    (encrypts : Encrypts S cipher text events answer cipher') : cipher.Stays cipher' := by
  cases encrypts with
  | empty _ => exact .refl _
  | worked slots unlocks _ => exact ⟨rfl, rfl, slots ▸ .cons unlocks.stays (stayIn_refl _)⟩
  | failed _ _ => exact .refl _

theorem Decrypts.stays {whole : String} {answer : Except Error String}
    (decrypts : Decrypts S cipher whole events answer cipher') : cipher.Stays cipher' := by
  cases decrypts with
  | unknown _ => exact .refl _
  | known slots _ _ unlocks =>
    exact ⟨rfl, rfl, slots ▸ List.rel_append (stayIn_refl _) (.cons unlocks.stays (stayIn_refl _))⟩

theorem LoadsIn.stays {slots slots' : List Slot} {answer : Except Error Unit}
    (loads : LoadsIn S appId secret slots events answer slots') : StayIn slots slots' := by
  induction loads with
  | done => exact .nil
  | loaded unlocks _ ih => exact .cons unlocks.stays ih
  | failed _ => exact stayIn_refl _

theorem Calls.stays {call : Call} {answer : Except Error (Option String)}
    (calls : Calls S cipher call events answer cipher') : cipher.Stays cipher' := by
  cases calls with
  | encrypt encrypts => exact encrypts.stays
  | decrypt decrypts => exact decrypts.stays
  | load loads => exact ⟨rfl, rfl, loads.stays⟩

/-- A cipher is still the one that it was, whatever it has loaded. -/
structure Same (cipher cipher' : Cipher) : Prop where
  appId : cipher'.appId = cipher.appId
  secret : cipher'.secret = cipher.secret
  schemes : cipher'.slots.map Slot.scheme = cipher.slots.map Slot.scheme

theorem Stays.same (stays : cipher.Stays cipher') : Same cipher cipher' where
  appId := stays.appId
  secret := stays.secret
  schemes := by
    obtain ⟨-, -, slots⟩ := stays
    generalize cipher.slots = before at slots
    generalize cipher'.slots = after at slots
    induction slots with
    | nil => rfl
    | cons stays _ ih => rw [List.map_cons, List.map_cons, stays.scheme, ih]

theorem schemes_ofSchemes (appId : String) (secret : Bytes) (schemes : List Scheme) :
    (ofSchemes appId secret schemes).slots.map Slot.scheme =
      schemes.mergeSort fun a b => a.order ≤ b.order :=
  List.map_map.trans (List.map_id _)

theorem locked_ofSchemes (appId : String) (secret : Bytes) (schemes : List Scheme) :
    ∀ slot ∈ (ofSchemes appId secret schemes).slots, slot.keys = none := by
  intro slot member
  obtain ⟨scheme, -, rfl⟩ := List.mem_map.mp member
  rfl

theorem scheme_of_slot {schemes : List Scheme} {slot : Slot}
    (member : slot ∈ (ofSchemes appId secret schemes).slots) : slot.scheme ∈ schemes := by
  have listed := List.mem_map_of_mem (f := Slot.scheme) member
  rw [schemes_ofSchemes] at listed
  exact List.mem_mergeSort.mp listed

end Cipher

end KeyService.LocalText
