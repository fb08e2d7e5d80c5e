import LispBridge.Message.Outbound
import LispBridge.Proofs.Datum.RoundTrip

/-!
Messages to the editor are read back as they were sent.

* `Datum.Fits`: the values that are read back if so many lists may be nested in them.
* `Response.IsRenderable`, `Response.fits_datum`: the messages whose data are read back.
* `Response.told`, `Response.datum_inj`: what the data of a message tell of it.
* `Response.reads_back`: both together, for the text of a message.
-/

namespace LispBridge

open Reader

namespace Datum

/-! ### Values that fit -/

/-- A value that a text can spell, with at most `n` lists nested in it. -/
structure Fits (n : Nat) (d : Datum) : Prop where
  wellFormed : d.WellFormed
  nesting_le : d.nesting ≤ n

theorem Fits.mono {n m : Nat} {d : Datum} (fits : d.Fits n) (le : n ≤ m) : d.Fits m :=
  ⟨fits.wellFormed, fits.nesting_le.trans le⟩

/-- A value with no more lists than the reader takes is read back. -/
theorem Fits.read_wire_eq {d : Datum} (fits : d.Fits maxDepth) : read d.wire = .ok d := by
  have room : 0 + d.nesting ≤ maxDepth := by simpa using fits.nesting_le
  rw [read_wire_of_readsBack (readsBack_of_wellFormed fits.wellFormed room), fits.wellFormed.reread]

section Fits

variable {n : Nat}

@[simp] theorem fits_nil : Fits n .nil :=
  ⟨.nil, Nat.zero_le n⟩

@[simp] theorem fits_int (k : Int64) : Fits n (.int k) :=
  ⟨.int k, Nat.zero_le n⟩

@[simp] theorem fits_str (content : String) : Fits n (.str content) :=
  ⟨.str content, Nat.zero_le n⟩

@[simp] theorem fits_ofCount (count : Nat) : Fits n (.ofCount count) := by
  unfold ofCount
  split
  · exact fits_int _
  · exact fits_int _

@[simp] theorem fits_ofText? (text : Option String) : Fits n (.ofText? text) := by
  cases text with
  | none => exact fits_nil
  | some text => exact fits_str text

/-- What begins with a colon is no number, nor `nil` or `t`. -/
theorem ofToken_colon (cs : List Char) :
    ofToken (':' :: cs) = .symbol (String.ofList (':' :: cs)) := by
  have noInteger : readInt64? (':' :: cs) = none := by simp [readInt64?, takeSign, isDigit]
  have noNumeral : isNumeral (':' :: cs) = false := by simp [isNumeral, isDigit]
  simp [ofToken, noInteger, noNumeral]

/-- A keyword is read back if its name holds nothing that ends a token. -/
theorem fits_keyword {name : String} (plain : name.toList.any isDelimiter = false) :
    Fits n (.keyword name) := by
  have each : ∀ c ∈ name.toList, isDelimiter c = false := by simpa using plain
  have split : (":" ++ name).toList = ':' :: name.toList := by simp
  have token : IsToken (":" ++ name).toList := by
    rw [split]
    constructor
    · exact List.cons_ne_nil _ _
    · exact List.forall_mem_cons.mpr ⟨by decide, each⟩
    · intro c first
      cases first
      decide
  have symbol : ofToken (":" ++ name).toList = .symbol (":" ++ name) := by
    rw [split, ofToken_colon, ← split, String.ofList_toList]
  exact ⟨.symbol ⟨token, symbol⟩, Nat.zero_le n⟩

theorem fits_list {ds : List Datum} (nonempty : ds ≠ []) (elements : ∀ d ∈ ds, d.Fits n) :
    Fits (n + 1) (.list ds) := by
  constructor
  · exact .list nonempty fun d mem => (elements d mem).wellFormed
  · have each : nestingOf ds ≤ n := nestingOf_le_iff.mpr fun d mem => (elements d mem).nesting_le
    rw [nesting]
    omega

/-- A list without elements is `nil`, so it fits as well. -/
theorem fits_ofItems {ds : List Datum} (elements : ∀ d ∈ ds, d.Fits n) :
    Fits (n + 1) (.ofItems ds) := by
  cases ds with
  | nil => exact fits_nil
  | cons d ds => exact fits_list (List.cons_ne_nil d ds) elements

/-- A list that begins with a keyword. -/
theorem fits_tagged {name : String} {fields : List Datum}
    (plain : name.toList.any isDelimiter = false) (elements : ∀ d ∈ fields, d.Fits n) :
    Fits (n + 1) (.list (keyword name :: fields)) := by
  apply fits_list (List.cons_ne_nil _ _)
  exact List.forall_mem_cons.mpr ⟨fits_keyword plain, elements⟩

end Fits

/-! ### What constructors tell -/

@[simp] theorem keyword_inj {a b : String} : keyword a = keyword b ↔ a = b := by
  rw [keyword, keyword, symbol.injEq, ← String.toList_inj, String.toList_append,
    String.toList_append, List.append_cancel_left_eq, String.toList_inj]

@[simp] theorem ofItems_inj {as bs : List Datum} : ofItems as = ofItems bs ↔ as = bs := by
  cases as with
  | nil => cases bs <;> simp [ofItems]
  | cons a as => cases bs <;> simp [ofItems]

/-- Counts that are not cut off are told apart. -/
theorem ofCount_inj {a b : Nat} (small : (a : Int) ≤ Int64.maxValue.toInt)
    (small' : (b : Int) ≤ Int64.maxValue.toInt) : ofCount a = ofCount b ↔ a = b := by
  have largest : Int64.maxValue.toInt = 2 ^ 63 - 1 := rfl
  constructor
  · intro same
    rw [ofCount, ofCount, if_pos small, if_pos small', int.injEq] at same
    have values := congrArg Int64.toInt same
    rw [Int64.toInt_ofNat_of_lt (by omega), Int64.toInt_ofNat_of_lt (by omega)] at values
    exact Int.ofNat_inj.mp values
  · exact congrArg ofCount

end Datum

open Datum

/-! ### Messages that fit -/

/-- Whether the level of an event, if it has one, is an integer that the editor is told. -/
def Event.IsRenderable : Event → Prop
  | .debug level .. | .debugActivate level | .debugReturn level =>
    (level : Int) ≤ Int64.maxValue.toInt
  | .readString | .readAborted | .writeString .. | .newPackage .. => True

/-- Whether the value of a verdict, if it has one, is spelled by a text, and leaves room for the
two lists around it. -/
def Verdict.IsRenderable : Verdict → Prop
  | .ok value => value.WellFormed ∧ value.nesting ≤ maxDepth - 2
  | .abort _ | .error _ => True

def Response.IsRenderable : Response → Prop
  | .event e => e.IsRenderable
  | .result verdict _ => verdict.IsRenderable

/-- Stack frames fit, however many there are. -/
theorem fits_framesDatum (frames : List String) (start : Nat) :
    (framesDatum frames start).Fits 2 := by
  apply fits_ofItems
  intro d mem
  obtain ⟨i, _, rfl⟩ := List.mem_mapIdx.mp mem
  exact fits_list (List.cons_ne_nil _ _) (by simp)

/-- The restarts of a level fit, however many there are. -/
theorem fits_restarts (restarts : List (String × String)) :
    (Datum.ofItems (restarts.map fun (name, description) =>
      .list [.str name, .str description])).Fits 2 := by
  apply fits_ofItems
  intro d mem
  obtain ⟨⟨name, description⟩, _, rfl⟩ := List.mem_map.mp mem
  exact fits_list (List.cons_ne_nil _ _) (by simp)

theorem Event.fits_datum (e : Event) : e.datum.Fits 3 := by
  cases e with
  | readString => exact fits_tagged (by decide) (by simp [sessionThread, readTag])
  | readAborted => exact fits_tagged (by decide) (by simp [sessionThread, readTag])
  | writeString text isResult =>
    apply fits_tagged (by decide)
    intro d mem
    rcases List.mem_cons.mp mem with rfl | mark
    · exact fits_str text
    · cases isResult with
      | true =>
        obtain rfl := List.mem_singleton.mp mark
        exact fits_keyword (by decide)
      | false => cases mark
  | newPackage name prompt => exact fits_tagged (by decide) (by simp)
  | debug level message restarts frames id =>
    have condition : (Datum.list [.str message, .str "", .nil]).Fits 2 :=
      fits_list (List.cons_ne_nil _ _) (by simp)
    have waiting : (Datum.list [.int id]).Fits 2 := fits_list (List.cons_ne_nil _ _) (by simp)
    exact fits_tagged (by decide)
      (by simp [sessionThread, condition, fits_restarts, fits_framesDatum, waiting])
  | debugActivate level => exact fits_tagged (by decide) (by simp [sessionThread])
  | debugReturn level => exact fits_tagged (by decide) (by simp [sessionThread])

theorem Verdict.fits_datum {v : Verdict} (renderable : v.IsRenderable) :
    v.datum.Fits (maxDepth - 1) := by
  cases v with
  | ok value =>
    have fits : value.Fits (maxDepth - 2) := ⟨renderable.1, renderable.2⟩
    exact fits_tagged (by decide) (List.forall_mem_singleton.mpr fits)
  | abort message => exact fits_tagged (by decide) (by simp)
  | error message => exact fits_tagged (by decide) (by simp)

theorem Response.fits_datum {r : Response} (renderable : r.IsRenderable) :
    r.datum.Fits maxDepth := by
  cases r with
  | event e => exact e.fits_datum.mono (by decide)
  | result verdict id =>
    apply fits_tagged (by decide)
    exact List.forall_mem_cons.mpr ⟨Verdict.fits_datum renderable, by simp⟩

/-! ### What data tell of a message -/

/-- What the editor is told of the end of a request: it knows no errors, so these are aborts. -/
def Verdict.told : Verdict → Verdict
  | .error message => .abort (some message)
  | v => v

/-- What the editor is told by a message. -/
def Response.told : Response → Response
  | .event e => .event e
  | .result verdict id => .result verdict.told id

theorem ofText?_inj {a b : Option String} : Datum.ofText? a = .ofText? b ↔ a = b := by
  cases a with
  | none => cases b <;> simp [Datum.ofText?]
  | some a => cases b <;> simp [Datum.ofText?]

/-- The numbers in front of stack frames hide nothing of these. -/
theorem framesDatum_inj {as bs : List String} {start : Nat} :
    framesDatum as start = framesDatum bs start ↔ as = bs := by
  constructor
  · intro same
    have items := ofItems_inj.mp same
    apply List.ext_getElem?
    intro i
    have here := congrArg (·[i]?) items
    simp only [List.getElem?_mapIdx] at here
    cases first : as[i]? with
    | none => cases second : bs[i]? <;> simp [first, second] at here ⊢
    | some a => cases second : bs[i]? <;> simp [first, second] at here ⊢; exact here
  · rintro rfl
    rfl

theorem restarts_inj {as bs : List (String × String)} :
    as.map (fun (name, description) => Datum.list [.str name, .str description]) =
      bs.map (fun (name, description) => Datum.list [.str name, .str description]) ↔ as = bs := by
  apply List.map_inj_right
  rintro ⟨name, description⟩ ⟨name', description'⟩ same
  simpa using same

/-- Events are told apart by their data. -/
theorem Event.datum_inj {e e' : Event} (renderable : e.IsRenderable)
    (renderable' : e'.IsRenderable) : e.datum = e'.datum ↔ e = e' := by
  constructor
  · intro same
    cases e with
    | readString => cases e' <;> simp [datum] at same ⊢
    | readAborted => cases e' <;> simp [datum] at same ⊢
    | writeString text isResult =>
      cases e' with
      | writeString text' isResult' =>
        cases isResult <;> cases isResult' <;> simp_all [datum]
      | _ => simp [datum] at same
    | newPackage name prompt => cases e' <;> simp_all [datum]
    | debug level message restarts frames id =>
      cases e' with
      | debug level' message' restarts' frames' id' =>
        simp only [datum, Datum.list.injEq, List.cons.injEq, Datum.str.injEq, Datum.int.injEq,
          ofCount_inj renderable renderable', ofItems_inj, restarts_inj, framesDatum_inj,
          true_and, and_true] at same
        obtain ⟨rfl, rfl, rfl, rfl, rfl⟩ := same
        rfl
      | _ => simp [datum] at same
    | debugActivate level =>
      cases e' with
      | debugActivate level' =>
        simpa [datum, ofCount_inj renderable renderable'] using same
      | _ => simp [datum] at same
    | debugReturn level =>
      cases e' with
      | debugReturn level' =>
        simpa [datum, ofCount_inj renderable renderable'] using same
      | _ => simp [datum] at same
  · rintro rfl
    rfl

/-- An error is told by the data of the abort with its text. -/
theorem Verdict.datum_told (v : Verdict) : v.told.datum = v.datum := by
  cases v <;> rfl

/-- Verdicts are told apart by their data, as far as the editor is told. -/
theorem Verdict.datum_inj {v v' : Verdict} : v.datum = v'.datum ↔ v.told = v'.told := by
  have aborts {a b : Option String} :
      (Verdict.abort a).datum = (Verdict.abort b).datum ↔ a = b := by
    simp [datum, ofText?_inj]
  constructor
  · intro same
    rw [← datum_told v, ← datum_told v'] at same
    cases v with
    | ok value => cases v' <;> simp_all [datum, told]
    | abort message =>
      cases v' with
      | ok value => simp [datum, told] at same
      | abort message' => exact congrArg abort (aborts.mp same)
      | error text' => exact congrArg abort (aborts.mp same)
    | error text =>
      cases v' with
      | ok value => simp [datum, told] at same
      | abort message' => exact congrArg abort (aborts.mp same)
      | error text' => exact congrArg abort (aborts.mp same)
  · intro same
    rw [← datum_told v, ← datum_told v', same]

/-- Messages are told apart by their data, as far as the editor is told. -/
theorem Response.datum_inj {r r' : Response} (renderable : r.IsRenderable)
    (renderable' : r'.IsRenderable) : r.datum = r'.datum ↔ r.told = r'.told := by
  cases r with
  | event e =>
    cases r' with
    | event e' => simp [datum, told, Event.datum_inj renderable renderable']
    | result verdict id => cases e <;> simp [datum, told, Event.datum]
  | result verdict id =>
    cases r' with
    | event e => cases e <;> simp [datum, told, Event.datum]
    | result verdict' id' => simp [datum, told, Verdict.datum_inj]

/-- **Messages are read back as they were sent.** The text of a message is read as the data of that
message, whatever texts, restarts and stack frames are in it. So no two messages have one text, but
for an error and the abort with its text. -/
theorem Response.reads_back {r : Response} (renderable : r.IsRenderable) :
    Datum.read r.payload = .ok r.datum ∧
      ∀ r' : Response, r'.IsRenderable → (r'.payload = r.payload ↔ r'.told = r.told) := by
  have reads {r : Response} (renderable : r.IsRenderable) : Datum.read r.payload = .ok r.datum :=
    (fits_datum renderable).read_wire_eq
  refine ⟨reads renderable, ?_⟩
  intro r' renderable'
  rw [← datum_inj renderable' renderable]
  constructor
  · intro same
    have values := congrArg Datum.read same
    rw [reads renderable', reads renderable] at values
    exact Except.ok.inj values
  · intro same
    rw [payload, payload, same]

/-- A level of the largest number, with a text that looks like the end of its string and of the
message, and an error that is told like an abort. -/
theorem Response.reads_back_of_level :
    let level := Response.event (.debug 9223372036854775807 "\" nil) (:return (:ok nil) 1)\\" []
      ["f \"x\""] (-1))
    Datum.read level.payload = .ok (.list [.symbol ":debug", .int 0, .int 9223372036854775807,
        .list [.str "\" nil) (:return (:ok nil) 1)\\", .str "", .nil], .nil,
        .list [.list [.int 0, .str "f \"x\""]], .list [.int (-1)]]) ∧
      (Response.result (.error "no") 7).payload =
        (Response.result (.abort (some "no")) 7).payload ∧
      (Response.result (.ok (.str "no")) 7).payload ≠ (Response.result (.error "no") 7).payload := by
  intro level
  have tellable : level.IsRenderable := by
    show (_ : Int) ≤ Int64.maxValue.toInt
    decide
  have ended : (Response.result (.error "no") 7).IsRenderable := trivial
  refine ⟨(reads_back tellable).1, ?_, ?_⟩
  · exact ((reads_back (r := .result (.abort (some "no")) 7) trivial).2 _ ended).mpr rfl
  · intro same
    have value : (Response.result (.ok (.str "no")) 7).IsRenderable :=
      ⟨.str "no", Nat.zero_le _⟩
    exact absurd (((reads_back ended).2 _ value).mp same) (by decide)

end LispBridge
