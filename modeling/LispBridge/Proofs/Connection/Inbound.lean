import LispBridge.Proofs.Connection.Changes

/-!
What a connection makes of the bytes that come.

* `Frame.Whole`: bytes that are frames and nothing else.
* `Connection.arrived`: the bytes that come in a run.
* `Connection.not_whole_of_failed`: a connection fails only if the bytes that came are at fault.
-/

namespace LispBridge

namespace Frame

variable {bytes left rest : List UInt8} {payload : String} {fault : FrameFault}

/-- Bytes that are frames, one behind the other: six hexadecimal digits in either case, and as many
bytes of UTF-8 as they announce. -/
inductive Whole : List UInt8 → Prop where
  | nil : Whole []
  | frame {header content rest : List UInt8} {cs : List Char} (six : header.length = headerLength)
      (announces : announced? header = some content.length) (utf8 : Utf8.decode content = .ok cs)
      (more : Whole rest) : Whole (header ++ (content ++ rest))

/-- What is taken from frames is a frame, unless there is none. -/
theorem Whole.decode_eq (whole : Whole bytes) :
    bytes = [] ∨ ∃ payload rest, decode bytes = (some (.ok payload), rest) ∧ Whole rest := by
  cases whole with
  | nil => exact .inl rfl
  | @frame header content rest cs six announces utf8 more =>
    refine .inr ⟨String.ofList cs, rest, ?_, more⟩
    rw [(Decoded.frame six announces).decode_eq, payloadOf, utf8]

/-- Behind a frame there are frames. -/
theorem Whole.of_payload (taken : decode bytes = (some (.ok payload), rest)) (more : List UInt8)
    (whole : Whole (bytes ++ more)) : Whole (rest ++ more) := by
  have first := decode_append taken more
  rcases whole.decode_eq with none | ⟨payload', rest', taken', whole'⟩
  · rw [none] at first
    cases first
  · rw [first] at taken'
    cases taken'
    exact whole'

/-- Bytes at fault are no frames, whatever comes behind them. -/
theorem not_whole_of_fault (taken : decode bytes = (some (.error fault), left))
    (more : List UInt8) : ¬ Whole (bytes ++ more) := by
  intro whole
  have first := decode_append taken more
  rcases whole.decode_eq with none | ⟨payload, rest, taken', -⟩
  · rw [none] at first
    cases first
  · rw [first] at taken'
    cases taken'

/-- A part of a frame is none. -/
theorem not_whole_of_waiting (waiting : decode bytes = (none, left)) (some : bytes ≠ []) :
    ¬ Whole bytes := by
  intro whole
  rcases whole.decode_eq with none | ⟨payload, rest, taken, -⟩
  · exact some none
  · rw [waiting] at taken
    cases taken

end Frame

/-- Why a connection reads no more. -/
def Phase.ending? : Phase → Option Ending
  | .serving => none
  | .draining ending _ | .closing ending _ | .closed ending => some ending

namespace Connection

variable {c c' : Connection} {B : List UInt8} {l : Label} {ls : List Label}

/-- The bytes that come in an event. -/
def Label.bytes : Label → List UInt8
  | .arrive bytes => bytes
  | _ => []

/-- The bytes that come in a run. -/
def arrived (ls : List Label) : List UInt8 :=
  ls.flatMap Label.bytes

/-- What has been made of the bytes that came: as long as a connection serves, what it has yet to
read decides whether they are frames; and if it has failed, they are none. -/
structure Reads (c : Connection) (B : List UInt8) : Prop where
  pending : c.isServing = true → ∀ more, Frame.Whole (B ++ more) →
    Frame.Whole (c.link.buffer ++ more)
  failed : ∀ fault, c.link.phase.ending? = some (.failed fault) →
    c.link.isInputOver = true ∧ ¬ Frame.Whole B ∨ ∀ more, ¬ Frame.Whole (B ++ more)

namespace Reads

/-- What has no part in reading. -/
theorem of_eq (reads : c.Reads B) (buffer : c'.link.buffer = c.link.buffer)
    (inputOver : c.link.isInputOver = true → c'.link.isInputOver = true)
    (serves : c'.isServing = true → c.isServing = true)
    (fails : ∀ fault, c'.link.phase.ending? = some (.failed fault) →
      c.link.phase.ending? = some (.failed fault)) : c'.Reads B := by
  constructor
  · intro serving
    rw [buffer]
    exact reads.pending (serves serving)
  · intro fault failed
    exact (reads.failed fault (fails fault failed)).imp_left (And.imp_left inputOver)

theorem arrive {bytes : List UInt8} (reads : c.Reads B) (more : c.link.isInputOver = false) :
    { c with link.buffer := c.link.buffer ++ bytes }.Reads (B ++ bytes) := by
  constructor
  · intro serves more whole
    rw [List.append_assoc] at whole
    show Frame.Whole (c.link.buffer ++ bytes ++ more)
    rw [List.append_assoc]
    exact reads.pending serves _ whole
  · intro fault failed
    rcases reads.failed fault failed with ⟨inputOver, -⟩ | fails
    · rw [more] at inputOver
      cases inputOver
    · right
      intro more
      rw [List.append_assoc]
      exact fails _

/-- The reading has ended, and not for a fault. -/
theorem stopped (ended : c'.isServing = false)
    (fine : ∀ fault, c'.link.phase.ending? ≠ some (.failed fault)) : c'.Reads B := by
  constructor
  · intro serves
    rw [ended] at serves
    cases serves
  · intro fault failed
    exact absurd failed (fine fault)

/-- A frame is read. -/
theorem frame {payload : String} {buffer : List UInt8} {sys : System} (reads : c.Reads B)
    (serves : c.isServing = true) (taken : c.link.taken = (some (.ok payload), buffer)) :
    Reads ⟨sys, { c.link with buffer }⟩ B := by
  constructor
  · intro _ more whole
    exact (reads.pending serves more whole).of_payload (Link.decode_of_taken_ok taken) more
  · intro fault failed
    have phase : c.link.phase = .serving := by simpa [isServing] using serves
    simp [phase, Phase.ending?] at failed

/-- The reading fails. -/
theorem fault {fault : FrameFault} {buffer : List UInt8} (reads : c.Reads B)
    (serves : c.isServing = true) (taken : c.link.taken = (some (.error fault), buffer)) :
    ({ c with link.buffer := buffer }.stopReading (.failed fault)).Reads B := by
  constructor
  · intro serves
    cases serves
  · intro _ _
    rcases Link.decode_of_taken_error taken with faulty | ⟨inputOver, some, waiting⟩
    · right
      intro more whole
      exact Frame.not_whole_of_fault faulty more (reads.pending serves more whole)
    · left
      refine ⟨inputOver, fun whole => ?_⟩
      have rest := reads.pending serves [] (by rwa [List.append_nil])
      rw [List.append_nil] at rest
      exact Frame.not_whole_of_waiting waiting some rest

theorem change (reads : c.Reads B) (change : Change c l c') : c'.Reads (B ++ l.bytes) := by
  have same (nothing : l.bytes = []) (reads : c'.Reads B) : c'.Reads (B ++ l.bytes) := by
    rwa [nothing, List.append_nil]
  cases change with
  | arrive bytes more => exact reads.arrive more
  | endInput | hangUp => exact same rfl (reads.of_eq rfl (fun _ => rfl) id fun _ => id)
  | deliver serves taken => exact same rfl (reads.frame serves taken)
  | fault serves taken => exact same rfl (reads.fault serves taken)
  | crash | endOfInput => exact same rfl (stopped rfl (by simp [Phase.ending?, stopReading,
      Link.stopReading]))
  | stop which =>
    have nothing : l.bytes = [] := by
      rcases which with rfl | rfl | rfl
      · rfl
      · rfl
      · rfl
    exact same nothing (stopped rfl (by simp [Phase.ending?, stopReading, Link.stopReading]))
  | @write r =>
    obtain ⟨sink, written, writer, wrote⟩ := c.link.write_eq r
    apply same rfl
    rw [wrote]
    exact reads.of_eq rfl id id fun _ => id
  | rest phase | close phase =>
    refine same rfl (reads.of_eq rfl id (fun serves => by cases serves) ?_)
    intro fault failed
    rw [phase]
    exact failed
  | _ => exact same rfl (reads.of_eq rfl id id fun _ => id)

/-- What has been made of the bytes that came in a run. -/
theorem run (reads : c.Reads B) (ran : c.run ls = some c') : c'.Reads (B ++ arrived ls) := by
  induction ls generalizing c B with
  | nil =>
    cases ran
    rwa [arrived, List.flatMap_nil, List.append_nil]
  | cons l ls ih =>
    obtain ⟨mid, stepped, rest⟩ := Option.bind_eq_some_iff.mp ran
    have later := ih (reads.change (step_change stepped)) rest
    rwa [List.append_assoc] at later

end Reads

theorem reads_new (s : Session) (grace : Nat) : (Connection.new s grace).Reads [] :=
  ⟨fun _ _ whole => whole, fun _ failed => by cases failed⟩

/-- A connection fails only if the bytes that came are not frames. -/
theorem not_whole_of_failed {s : Session} {grace : Nat} {fault : FrameFault}
    (ran : (Connection.new s grace).run ls = some c)
    (failed : c.link.phase.ending? = some (.failed fault)) : ¬ Frame.Whole (arrived ls) := by
  have reads := (reads_new s grace).run ran
  rw [List.nil_append] at reads
  rcases reads.failed fault failed with ⟨-, corrupt⟩ | corrupt
  · exact corrupt
  · simpa using corrupt []

end Connection

end LispBridge
