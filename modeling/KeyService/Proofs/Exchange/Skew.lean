import KeyService.Proofs.Exchange.Causes

/-! The clocks of two parties.
A request names the time at which it was made, and is refused if that is too far from the
responder's own time. The difference is taken in sixty-four bits, which hold every difference
of a timestamp to come and those of a past that does not lie too far back. At a timestamp
before that a build that checks its arithmetic breaks off. Another one goes on with a
difference that has wrapped around, and that may be as small as one of today. -/
namespace KeyService.Exchange.Responder

/-- How far a timestamp lies back, among all integers. -/
def apart (now timestamp : Int64) : Int := now.toInt - timestamp.toInt

/-- Neither the difference nor its size is beyond sixty-four bits. -/
def Exact (now timestamp : Int64) : Prop :=
  (now - timestamp).toInt = apart now timestamp ∧
    (skew now timestamp).toInt = (apart now timestamp).natAbs

def Stale (result : Except Error Unit) : Prop := ∃ skew, result = .error (.stale skew)

variable {S : Suite} {r : Responder} {request : Request} {now timestamp : Int64}

theorem toInt_max : Int64.maxValue.toInt = 9223372036854775807 := rfl

theorem toInt_min : Int64.minValue.toInt = -9223372036854775808 := rfl

theorem toInt_bounds (i : Int64) : -9223372036854775808 ≤ i.toInt ∧ i.toInt ≤ 9223372036854775807 :=
  ⟨i.minValue_le_toInt, i.toInt_le⟩

theorem toInt_of_epoch (epoch : 0 ≤ now) : 0 ≤ now.toInt := Int64.le_iff_toInt_le.mp epoch

theorem toInt_millis (span : Seconds) :
    (millis span).toInt = min (span.toMillis : Int) Int64.maxValue.toInt := by
  have := Int.natCast_nonneg span.toMillis
  rw [millis, toInt_max]
  exact Int64.toInt_ofInt_of_le (by omega) (by omega)

theorem toInt_later (now : Int64) (span : Seconds) : (later now (millis span)).toInt =
    min (now.toInt + min (span.toMillis : Int) Int64.maxValue.toInt) Int64.maxValue.toInt := by
  have := toInt_bounds now
  rw [later, toInt_millis, toInt_max]
  exact Int64.toInt_ofInt_of_le (by omega) (by omega)

theorem toInt_difference (epoch : 0 ≤ now) (timestamp : Int64) : (now - timestamp).toInt =
    if apart now timestamp ≤ Int64.maxValue.toInt then apart now timestamp
    else apart now timestamp - UInt64.size := by
  have := toInt_of_epoch epoch
  have := toInt_bounds now
  have := toInt_bounds timestamp
  rw [Int64.toInt_sub, Int.bmod_def, toInt_max]
  unfold apart
  simp only [UInt64.size]
  split <;> split <;> omega

/-- The least of all numbers has no positive counterpart, so its size is itself. -/
theorem toInt_skew : (skew now timestamp).toInt =
    if (now - timestamp).toInt = Int64.minValue.toInt then Int64.minValue.toInt
    else ((now - timestamp).toInt.natAbs : Int) := by
  have := toInt_bounds (now - timestamp)
  have negative : now - timestamp < 0 ↔ (now - timestamp).toInt < 0 := Int64.lt_iff_toInt_lt
  unfold skew
  rw [toInt_min]
  by_cases before : now - timestamp < 0
  · have := negative.mp before
    rw [if_pos before, Int64.toInt_neg, Int.bmod_def]
    split <;> split <;> omega
  · have := mt negative.mpr before
    rw [if_neg before]
    split <;> omega

theorem exact_iff (epoch : 0 ≤ now) (timestamp : Int64) :
    Exact now timestamp ↔ apart now timestamp ≤ Int64.maxValue.toInt := by
  have difference := toInt_difference epoch timestamp
  constructor
  · rintro ⟨same, -⟩
    have := (now - timestamp).toInt_le
    rwa [same] at this
  · intro inside
    rw [if_pos inside] at difference
    refine ⟨difference, ?_⟩
    have := toInt_of_epoch epoch
    have := toInt_bounds timestamp
    rw [toInt_skew, difference, if_neg]
    unfold apart
    rw [toInt_min]
    omega

/-- Beyond sixty-four bits, a difference counts for what it lacks to the next turn, and half a turn
counts for less than nothing. -/
theorem lt_skew_of_wrapped (epoch : 0 ≤ now)
    (wrapped : Int64.maxValue.toInt < apart now timestamp) (bound : Nat) :
    bound < (skew now timestamp).toInt ↔
      Int64.maxValue.toInt + 1 < apart now timestamp ∧
        bound + apart now timestamp < UInt64.size := by
  have := toInt_of_epoch epoch
  have := toInt_bounds now
  have := toInt_bounds timestamp
  rw [toInt_skew, toInt_difference epoch timestamp, if_neg (Int.not_le.mpr wrapped)]
  rw [toInt_max] at *
  rw [toInt_min]
  unfold apart at *
  simp only [UInt64.size]
  split <;> omega

theorem millis_lt_iff (short : r.skewSeconds.toMillis ≤ Int64.maxValue.toInt) (skew : Int64) :
    millis r.skewSeconds < skew ↔ r.skewSeconds.toMillis < skew.toInt := by
  rw [Int64.lt_iff_toInt_lt, toInt_millis, Int.min_eq_left short]

theorem gives_validate_now {events : List Event} {result : Except Error Unit} :
    (r.validate request).run.Gives (⟨.now, now⟩ :: events) result ↔
      checkCipher request = .ok () ∧ events = reports now request.timestamp ∧
        r.checkClock now request.timestamp = result := by
  rw [gives_validate]
  constructor
  · rintro (⟨_, -, ⟨⟩, -⟩ | ⟨known, _, ⟨⟩, same⟩)
    exact ⟨known, rfl, same⟩
  · rintro ⟨known, rfl, same⟩
    exact .inr ⟨known, now, rfl, same⟩

theorem reports_of_wrapped (wrapped : Int64.maxValue.toInt < apart now timestamp) :
    ∃ rest, reports now timestamp = ⟨.overflow, ()⟩ :: rest := by
  unfold reports Program.outside
  rw [if_neg fun fits => absurd fits.2 (Int.not_le.mpr wrapped)]
  exact ⟨_, rfl⟩

theorem reports_eq_nil (epoch : 0 ≤ now) (timestamp : Int64) :
    reports now timestamp = [] ↔ apart now timestamp ≤ Int64.maxValue.toInt := by
  constructor
  · intro quiet
    by_contra beyond
    obtain ⟨rest, reported⟩ := reports_of_wrapped (Int.not_le.mp beyond)
    cases quiet.symm.trans reported
  · intro inside
    have difference := toInt_difference epoch timestamp
    rw [if_pos inside] at difference
    have := toInt_of_epoch epoch
    have := toInt_bounds timestamp
    unfold reports Program.outside
    rw [difference, toInt_min]
    unfold apart at *
    rw [toInt_max] at *
    rw [if_pos (by omega), if_pos (by omega), List.nil_append]

theorem stale_checkClock : Stale (r.checkClock now timestamp) ↔
    millis r.skewSeconds < skew now timestamp := by
  unfold checkClock
  split
  · rename_i far
    exact ⟨fun _ => far, fun _ => ⟨_, rfl⟩⟩
  · rename_i near
    exact ⟨nofun, fun far => absurd far near⟩

/-- What becomes of a request whose clock is read as `now`. Every run says the same of it. The check
is exact, and nothing leaves sixty-four bits, as long as the timestamp does not lie back further than
they can tell. Beyond that a build that checks its arithmetic stands still after the clock, and what
another one finds is the difference's distance to the next turn. -/
structure Judged (r : Responder) (request : Request) (now : Int64) (result : Except Error Unit) :
    Prop where
  runs : ∀ events result', (r.validate request).run.Gives (⟨.now, now⟩ :: events) result' ↔
    events = reports now request.timestamp ∧ result' = result
  exact : (reports now request.timestamp = [] ∧ Exact now request.timestamp ∧
      (Stale result ↔ r.skewSeconds.toMillis < (apart now request.timestamp).natAbs)) ↔
    apart now request.timestamp ≤ Int64.maxValue.toInt
  checked : Int64.maxValue.toInt < apart now request.timestamp →
    ∃ next, (r.validate request).run.Leads [⟨.now, now⟩] (.ask .overflow next)
  unchecked : Stale result ↔
    apart now request.timestamp ≤ Int64.maxValue.toInt ∧
        r.skewSeconds.toMillis < (apart now request.timestamp).natAbs ∨
      Int64.maxValue.toInt + 1 < apart now request.timestamp ∧
        r.skewSeconds.toMillis + apart now request.timestamp < UInt64.size

/-- A request that names a known cipher is found to be stale exactly if its timestamp is further
from the clock than the responder allows, and without an overflow, exactly as long as it does not
lie back further than sixty-four bits can tell. -/
theorem stale_iff (known : checkCipher request = .ok ()) (epoch : 0 ≤ now)
    (short : r.skewSeconds.toMillis ≤ Int64.maxValue.toInt) :
    ∃ result, Judged r request now result := by
  have far : Stale (r.checkClock now request.timestamp) ↔
      r.skewSeconds.toMillis < (skew now request.timestamp).toInt := by
    rw [stale_checkClock, millis_lt_iff short]
  have exact := exact_iff epoch request.timestamp
  have size (inside : apart now request.timestamp ≤ Int64.maxValue.toInt) :
      Stale (r.checkClock now request.timestamp) ↔
        r.skewSeconds.toMillis < (apart now request.timestamp).natAbs := by
    rw [far, (exact.mpr inside).2, Int.ofNat_lt]
  refine ⟨r.checkClock now request.timestamp, fun events result' => ?_, ?_, fun wrapped => ?_, ?_⟩
  · rw [gives_validate_now, eq_comm (a := r.checkClock now request.timestamp)]
    exact and_iff_right known
  · constructor
    · exact fun sound => exact.mp sound.2.1
    · exact fun inside =>
        ⟨(reports_eq_nil epoch request.timestamp).mpr inside, exact.mpr inside, size inside⟩
  · obtain ⟨rest, reported⟩ := reports_of_wrapped wrapped
    exact (gives_validate_now.mpr ⟨known, reported.symm, rfl⟩).stands [⟨.now, now⟩]
  · by_cases inside : apart now request.timestamp ≤ Int64.maxValue.toInt
    · rw [size inside]
      omega
    · rw [far, lt_skew_of_wrapped epoch (Int.not_le.mp inside)]
      omega

open Suite (small)

/-- Five minutes and a millisecond are too much for a responder that allows five minutes. -/
theorem stale_iff_small : ∃ (p : Pending small) (result : Except Error Unit),
    checkCipher p.request = .ok () ∧ (0 : Int64) ≤ 300001 ∧
    Small.responder.skewSeconds.toMillis ≤ Int64.maxValue.toInt ∧
    Small.responder.skewSeconds.toMillis < (apart 300001 p.request.timestamp).natAbs ∧
    (Small.responder.validate p.request).run.Gives [⟨.now, 300001⟩] result ∧ Stale result := by
  obtain ⟨p, timestamp, prepared⟩ := Small.prepared 3
  have known : checkCipher p.request = .ok () := prepared.checkCipher rfl
  have epoch : (0 : Int64) ≤ 300001 := by decide
  have short : Small.responder.skewSeconds.toMillis ≤ Int64.maxValue.toInt := by decide
  have inside : apart 300001 p.request.timestamp ≤ Int64.maxValue.toInt ∧
      Small.responder.skewSeconds.toMillis < (apart 300001 p.request.timestamp).natAbs := by
    rw [timestamp]
    decide
  obtain ⟨result, judged⟩ := stale_iff (r := Small.responder) known epoch short
  obtain ⟨quiet, -, stale⟩ := judged.exact.mpr inside.1
  exact ⟨p, result, known, epoch, short, inside.2, (judged.runs _ _).mpr ⟨quiet.symm, rfl⟩,
    stale.mpr inside.2⟩

def patient : Responder := ⟨⟨.elliptic, "default"⟩, 3600, 9223372036854775⟩

/-- A request of the farthest past is not found to be stale, although it is further away than
allowed. A build that checks its arithmetic breaks off before anything is kept, another one answers
and keeps a session. -/
theorem untimely_answered : ∃ (p : Pending small) (events : List Event) (session : Session)
    (response : Response) (next : Unit → Program (Except Error Unit))
    (next' : Unit → Program (Except Error Response)),
    checkCipher p.request = .ok () ∧ (0 : Int64) ≤ 1700000000000 ∧
    patient.skewSeconds.toMillis ≤ Int64.maxValue.toInt ∧
    patient.skewSeconds.toMillis < (apart 1700000000000 p.request.timestamp).natAbs ∧
    (patient.validate p.request).run.Leads [⟨.now, 1700000000000⟩] (.ask .overflow next) ∧
    (respond small patient p.request).run.Leads [⟨.now, 1700000000000⟩] (.ask .overflow next') ∧
    (patient.validate p.request).run.Gives [⟨.now, 1700000000000⟩, ⟨.overflow, ()⟩] (.ok ()) ∧
    (respond small patient p.request).run.Gives
      (⟨.now, 1700000000000⟩ :: ⟨.overflow, ()⟩ :: events ++ [⟨.keepSession session, ()⟩])
      (.ok response) := by
  have endpoint : Small.initiator.endpoint.check "/exchange" = .ok () := rfl
  obtain ⟨p, timestamp, prepared⟩ := Initiator.prepared_of_draws (Small.halves 3).2 endpoint none
    Small.seed Small.token Int64.minValue
  have known : checkCipher p.request = .ok () := prepared.checkCipher rfl
  have far : patient.skewSeconds.toMillis < (apart 1700000000000 p.request.timestamp).natAbs := by
    rw [timestamp]
    decide
  have timely : patient.checkClock 1700000000000 p.request.timestamp = .ok () := by
    rw [timestamp]
    rfl
  have reported : reports 1700000000000 p.request.timestamp = [⟨.overflow, ()⟩] := by
    rw [timestamp]
    rfl
  have validated := gives_validate_now.mpr ⟨known, reported.symm, timely⟩
  have given := prepared.answered (r := patient) Suite.small_symmetric Suite.small_readsPublic
    rfl rfl (Small.halves 3) rfl timely Small.drawn 1700000000000
  rw [reported] at given
  obtain ⟨next, stands⟩ := validated.stands [⟨.now, 1700000000000⟩]
  obtain ⟨next', stands'⟩ := given.stands [⟨.now, 1700000000000⟩]
  exact ⟨p, [_, _, _, _, _], _, _, next, next', known, by decide, by decide, far, stands, stands',
    validated, given⟩

end KeyService.Exchange.Responder
