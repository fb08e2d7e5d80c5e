import LispBridge.Proofs.Frame.Decode

/-!
A stream in chunks and a stream whose bytes are all there come to the same.

* `take_of_waiting`, `take_of_fault`, `take_of_payload`: one frame taken from a stream that has
  ended, by what a stream that may go on comes to.
* `takeAll_eq`: all frames taken from a stream that has ended, by those of one that may go on.
* `feed_agrees_with_takeAll`: the payloads of a stream and its first fault do not depend on where
  it is cut, nor on whether its end is known.
-/

namespace LispBridge

/-- Whether a fault is only that the stream ended too early. -/
def FrameFault.isCut : FrameFault → Bool
  | .headerCut | .payloadCut _ => true
  | .badHeader _ | .notUtf8 _ | .unfinished _ | .tooLong _ => false

namespace Frame

variable {bytes left rest : List UInt8} {payload : String} {fault : FrameFault}

/-! ### One frame -/

theorem payloadOf_error (failed : payloadOf bytes = .error fault) :
    ∃ utf8, fault = .notUtf8 utf8 := by
  rw [payloadOf] at failed
  split at failed
  · cases failed
  · next utf8 _ => exact ⟨utf8, (Except.error.inj failed).symm⟩

/-- What a buffer still lacks, a stream that has ended will not bring. -/
theorem take_of_waiting (waiting : decode bytes = (none, bytes)) :
    ∃ fault, fault.isCut = true ∧ take bytes = (.error fault, []) := by
  have outcome := waiting ▸ decoded bytes
  cases outcome with
  | noHeader short => exact ⟨.headerCut, rfl, by simp [take, short]⟩
  | @noPayload header rest length six announces short =>
    refine ⟨.payloadCut length, rfl, ?_⟩
    simp [take, ← six, announces, short]

/-- A fault that a buffer comes to is that of the stream, and it is no lack of bytes. -/
theorem take_of_fault (taken : decode bytes = (some (.error fault), left)) :
    ((∃ raw, fault = .badHeader raw) ∨ ∃ utf8, fault = .notUtf8 utf8) ∧
      ∃ unread, take bytes = (.error fault, unread) := by
  have outcome := decoded bytes
  generalize decode bytes = result at taken outcome
  cases outcome with
  | noHeader => cases taken
  | @badHeader header rest six bad =>
    cases taken
    refine ⟨.inl ⟨header, rfl⟩, rest, ?_⟩
    simp [take, ← six, bad]
  | noPayload => cases taken
  | @frame header content rest six announces =>
    obtain ⟨failed, rfl⟩ := Prod.mk.inj taken
    have failed := Option.some.inj failed
    refine ⟨.inr (payloadOf_error failed), rest, ?_⟩
    simp [take, ← six, announces, failed]

theorem take_of_payload (taken : decode bytes = (some (.ok payload), rest)) :
    take bytes = (.ok payload, rest) := by
  have outcome := decoded bytes
  generalize decode bytes = result at taken outcome
  cases outcome with
  | noHeader => cases taken
  | badHeader => cases taken
  | noPayload => cases taken
  | frame six announces =>
    obtain ⟨whole, rfl⟩ := Prod.mk.inj taken
    have whole := Option.some.inj whole
    simp [take, ← six, announces, whole]

/-! ### All frames of a stream that has ended -/

theorem takeUpTo_of_error {n : Nat} (failed : take bytes = (.error fault, left)) :
    takeUpTo (n + 1) bytes = ([], some fault, left) := by
  rw [takeUpTo, failed]

/-- What is reported of a fault while the stream may still go on: nothing if all that is wrong is
that bytes are missing. -/
def reported (fault : FrameFault) : List (Except FrameFault String) :=
  if fault.isCut then [] else [.error fault]

/-- Taking frames from a stream always comes to a fault, for want of bytes at the latest. Up to
there it takes the frames of a buffer that holds the stream. -/
theorem takeAll_eq (bytes : List UInt8) :
    ∃ payloads fault unread, takeAll bytes = (payloads, some fault, unread) ∧
      (decodeAll bytes).1 = payloads.map .ok ++ reported fault ∧
      (fault.isCut = false →
        (∃ raw, fault = .badHeader raw) ∨ ∃ utf8, fault = .notUtf8 utf8) := by
  suffices steps : ∀ n, bytes.length < n → ∃ payloads fault unread,
      takeUpTo n bytes = (payloads, some fault, unread) ∧
      (decodeAll bytes).1 = payloads.map .ok ++ reported fault ∧
      (fault.isCut = false →
        (∃ raw, fault = .badHeader raw) ∨ ∃ utf8, fault = .notUtf8 utf8) from
    steps _ (Nat.lt_succ_self _)
  induction bytes using frames_induction with
  | waiting bytes waiting =>
    intro n enough
    obtain ⟨n, rfl⟩ := Nat.exists_eq_add_of_lt enough
    obtain ⟨fault, cut, ended⟩ := take_of_waiting waiting
    refine ⟨[], fault, [], takeUpTo_of_error ended, ?_, ?_⟩
    · rw [decodeAll_of_waiting waiting, reported, if_pos cut]
      rfl
    · rw [cut]
      exact nofun
  | fault bytes fault left taken =>
    intro n enough
    obtain ⟨n, rfl⟩ := Nat.exists_eq_add_of_lt enough
    obtain ⟨kind, unread, failed⟩ := take_of_fault taken
    refine ⟨[], fault, unread, takeUpTo_of_error failed, ?_, fun _ => kind⟩
    have notCut : fault.isCut = false := by
      rcases kind with ⟨raw, rfl⟩ | ⟨utf8, rfl⟩
      · rfl
      · rfl
    rw [decodeAll_of_fault taken, reported, notCut]
    rfl
  | payload bytes p rest taken ih =>
    intro n enough
    have shorter := length_decode_ok taken
    obtain ⟨n, rfl⟩ := Nat.exists_eq_add_of_lt enough
    obtain ⟨payloads, fault, unread, others, results, kind⟩ :=
      ih (bytes.length + n) (by omega)
    refine ⟨p :: payloads, fault, unread, ?_, ?_, kind⟩
    · rw [takeUpTo, take_of_payload taken]
      simp only [others]
    · rw [decodeAll_of_payload taken, results]
      rfl

/-! ### Chunks -/

/-- What a stream comes to does not depend on where it is cut, faults included. -/
theorem results_feed {buffer : List UInt8} (waiting : decode buffer = (none, buffer))
    (chunks : List (List UInt8)) :
    (feed buffer chunks).1 = (decodeAll (buffer ++ chunks.flatten)).1 := by
  induction chunks generalizing buffer with
  | nil => rw [feed, List.flatten_nil, List.append_nil, decodeAll_of_waiting waiting]
  | cons chunk chunks ih =>
    rw [List.flatten_cons, ← List.append_assoc, decodeAll_append]
    by_cases here : faultless (decodeAll (buffer ++ chunk)).1 = true
    · have go_on : (decodeAll (buffer ++ chunk)).1.all (·.isOk) = true := here
      simp only [feed, go_on, if_true, here, ih (decode_left _ here)]
    · have stop : ¬(decodeAll (buffer ++ chunk)).1.all (·.isOk) = true := here
      simp only [feed, if_neg stop, if_neg here]

/-- A stream in chunks yields the payloads that are taken from its bytes at once. It comes to a
fault just if they do and the fault is not that bytes are missing, and that is the same fault. It
ends with a frame that is not complete, or with none, just if bytes are missing. -/
theorem feed_agrees_with_takeAll (bytes : List UInt8) :
    ∃ payloads fault unread, takeAll bytes = (payloads, some fault, unread) ∧
      (fault.isCut = false →
        (∃ raw, fault = .badHeader raw) ∨ ∃ utf8, fault = .notUtf8 utf8) ∧
      ∀ chunks, chunks.flatten = bytes →
        ∃ ending left, feed [] chunks = (payloads.map .ok ++ ending, left) ∧
          (∀ f, ending = [.error f] ↔ fault = f ∧ fault.isCut = false) ∧
          (ending = [] ∧ decode left = (none, left) ↔ fault.isCut = true) := by
  obtain ⟨payloads, fault, unread, ended, results, kind⟩ := takeAll_eq bytes
  refine ⟨payloads, fault, unread, ended, kind, ?_⟩
  intro chunks joined
  have fed : (feed [] chunks).1 = payloads.map .ok ++ reported fault := by
    rw [results_feed rfl, List.nil_append, joined, results]
  refine ⟨reported fault, (feed [] chunks).2, by rw [← fed], ?_, ?_⟩
  · intro f
    by_cases cut : fault.isCut = true
    · simp [reported, cut]
    · simp [reported, cut]
  · by_cases cut : fault.isCut = true
    · have ok : faultless (decodeAll ([] ++ chunks.flatten)).1 = true := by
        rw [List.nil_append, joined, results, reported, if_pos cut, List.append_nil]
        exact faultless_map_ok _
      have waiting : decode (feed [] chunks).2 = (none, (feed [] chunks).2) := by
        rw [feed_eq_decodeAll rfl chunks ok]
        exact decode_left _ ok
      simp [reported, cut, waiting]
    · simp [reported, cut]

/-- Behind a payload, a bad header is found although a chunk ends inside it. -/
theorem feed_agrees_with_takeAll_on_garbage :
    [[0x30, 0x30, 0x30, 0x30, 0x30], [0x31, 0x61, 0x30, 0x30], [0x7a],
        [0x7a, 0x30, 0x31, 0x78]].flatten =
      ([0x30, 0x30, 0x30, 0x30, 0x30, 0x31, 0x61] ++ [0x30, 0x30, 0x7a, 0x7a, 0x30, 0x31, 0x78] :
        List UInt8) ∧
    ∃ left, feed [] [[0x30, 0x30, 0x30, 0x30, 0x30], [0x31, 0x61, 0x30, 0x30], [0x7a],
        [0x7a, 0x30, 0x31, 0x78]] =
      ([.ok "a", .error (.badHeader [0x30, 0x30, 0x7a, 0x7a, 0x30, 0x31])], left) := by
  have joined : [[0x30, 0x30, 0x30, 0x30, 0x30], [0x31, 0x61, 0x30, 0x30], [0x7a],
      [0x7a, 0x30, 0x31, 0x78]].flatten =
      ([0x30, 0x30, 0x30, 0x30, 0x30, 0x31, 0x61] ++ [0x30, 0x30, 0x7a, 0x7a, 0x30, 0x31, 0x78] :
        List UInt8) := rfl
  refine ⟨joined, ?_⟩
  obtain ⟨payloads, fault, unread, ended, _, fed⟩ := feed_agrees_with_takeAll
    ([0x30, 0x30, 0x30, 0x30, 0x30, 0x31, 0x61] ++ [0x30, 0x30, 0x7a, 0x7a, 0x30, 0x31, 0x78])
  have known : takeAll ([0x30, 0x30, 0x30, 0x30, 0x30, 0x31, 0x61] ++
      [0x30, 0x30, 0x7a, 0x7a, 0x30, 0x31, 0x78]) =
      (["a"], some (.badHeader [0x30, 0x30, 0x7a, 0x7a, 0x30, 0x31]), [0x78]) := by decide +kernel
  obtain ⟨rfl, rest⟩ := Prod.mk.inj (ended.symm.trans known)
  obtain rfl := Option.some.inj (Prod.mk.inj rest).1
  obtain ⟨ending, left, yields, reports, _⟩ := fed _ joined
  rw [(reports _).mpr ⟨rfl, rfl⟩] at yields
  exact ⟨left, yields⟩

end Frame

end LispBridge
