import Telemetry.Proofs.Agent.Run
import Telemetry.Proofs.Text.Cutting

/-!
# What comes in over a connection

The bytes of a connection are cut into lines at the line feeds.  A line of text holds
an envelope or it does not (`decode?`), and one that does not is passed over.  A line
that is no text (`isReadable`) is another matter, since the connection breaks off
there.  So the envelopes that come in are those of the lines before the first such
line, and all of them come in, in their order.

`received` says this of any bytes.  It also says when nothing is lost by breaking off:
just in case no envelope stands behind a line that is no text.  That this is the only
case rests on a count, for each envelope that comes in is one more that waits in the
queue or has been dropped from it (`Queue.arrivals_push`).
-/

namespace Telemetry

namespace Queue

variable {α : Type}

/-- How many items have come in, of those that have been dropped or wait. -/
def arrivals (q : Queue α) : Nat := q.dropped + q.pending

theorem arrivals_push (q : Queue α) (item : α) : (q.push item).arrivals = q.arrivals + 1 := by
  have items := congrArg List.length (q.items_push item)
  rw [List.length_append, List.length_append, List.length_singleton] at items
  simp only [arrivals, pending, dropped_push]
  omega

theorem arrivals_foldl_push (q : Queue α) (items : List α) :
    (items.foldl push q).arrivals = q.arrivals + items.length := by
  induction items generalizing q with
  | nil => rfl
  | cons item items ih =>
      rw [List.foldl_cons, ih, arrivals_push, List.length_cons]
      omega

end Queue

namespace Intake

/-! ## Lines -/

/-- Whether a line is a text. -/
def isReadable (line : List UInt8) : Bool := (Text.utf8? line).isSome

/-- The envelope of a line, if it is a text that holds one. -/
def decode? (line : List UInt8) : Option Envelope := (Text.utf8? line).bind envelope?

/-- The lines with line feeds between them are the bytes that were cut. -/
theorem intercalate_linesOf (bytes : List UInt8) :
    List.intercalate ['\n'.toUInt8] (linesOf bytes) = bytes := by
  have same : (fun b : UInt8 => decide (b = '\n'.toUInt8)) = (· == '\n'.toUInt8) :=
    funext fun b => (beq_eq_decide b _).symm
  rw [linesOf, Text.splitAt_eq_splitOnP, same]
  exact List.intercalate_splitOn _

theorem not_mem_of_mem_linesOf {bytes line : List UInt8} (among : line ∈ linesOf bytes) :
    '\n'.toUInt8 ∉ line := by
  intro there
  have uncut := Text.not_cut_of_mem_splitAt among there
  exact of_decide_eq_false uncut rfl

/-! ## Envelopes -/

/-- Takes some envelopes in, one after the other. -/
def acceptAll (q : Queue Envelope) (d : Diagnostics) (envelopes : List Envelope) :
    Queue Envelope × Diagnostics :=
  envelopes.foldl (fun s e => accept s.1 s.2 e) (q, d)

theorem acceptAll_queue (q : Queue Envelope) (d : Diagnostics) (envelopes : List Envelope) :
    (acceptAll q d envelopes).1 = (envelopes.map Envelope.sourced).foldl Queue.push q := by
  induction envelopes generalizing q d with
  | nil => rfl
  | cons e envelopes ih =>
      rw [acceptAll, List.foldl_cons, List.map_cons, List.foldl_cons, ← accept_queue q d e]
      exact ih _ _

/-- As many come in as are taken in. -/
theorem arrivals_acceptAll (q : Queue Envelope) (d : Diagnostics) (envelopes : List Envelope) :
    (acceptAll q d envelopes).1.arrivals = q.arrivals + envelopes.length := by
  rw [acceptAll_queue, Queue.arrivals_foldl_push, List.length_map]

/-- Whether more has been taken in can be seen. -/
theorem acceptAll_append_inj {q : Queue Envelope} {d : Diagnostics} {before after : List Envelope} :
    acceptAll q d before = acceptAll q d (before ++ after) ↔ after = [] := by
  refine ⟨fun same => ?_, fun none_ => by rw [none_, List.append_nil]⟩
  have counted := congrArg (fun s => s.1.arrivals) same
  simp only [arrivals_acceptAll, List.length_append] at counted
  exact List.eq_nil_of_length_eq_zero (by omega)

/-! ## Connections -/

/-- A line that is a text is taken in if it holds an envelope. -/
theorem ingest_eq {line : List UInt8} {text : List Char} (reads : Text.utf8? line = some text)
    (q : Queue Envelope) (d : Diagnostics) :
    ingest q d text = acceptAll q d (decode? line).toList := by
  rw [decode?, reads, ingest, Option.bind_some]
  cases envelope? text <;> rfl

/-- What lines bring in, and how they end. -/
theorem ingestAll_eq (q : Queue Envelope) (d : Diagnostics) (lines : List (List UInt8)) :
    ingestAll q d lines =
      (acceptAll q d ((lines.takeWhile isReadable).filterMap decode?),
        if ∀ line ∈ lines, isReadable line then .finished else .brokenOff) := by
  induction lines generalizing q d with
  | nil => rfl
  | cons line lines ih =>
      cases reads : Text.utf8? line with
      | none =>
          have unreadable : isReadable line = false := by rw [isReadable, reads]; rfl
          simp only [ingestAll, reads, List.takeWhile_cons, unreadable, List.forall_mem_cons]
          rfl
      | some text =>
          have readable : isReadable line = true := by rw [isReadable, reads]; rfl
          have first : (line :: lines.takeWhile isReadable).filterMap decode? =
              (decode? line).toList ++ (lines.takeWhile isReadable).filterMap decode? := by
            rw [List.filterMap_cons]
            cases decode? line <;> rfl
          simp only [ingestAll, reads, ih, ingest_eq reads, List.takeWhile_cons, readable,
            if_true, first, List.forall_mem_cons, true_and]
          simp only [acceptAll, List.foldl_append]

/-- What comes of the bytes of a connection. -/
structure Received (q : Queue Envelope) (d : Diagnostics) (bytes : List UInt8) : Prop where
  /-- The lines are the bytes, cut at each line feed. -/
  lines : List.intercalate ['\n'.toUInt8] (linesOf bytes) = bytes ∧
    ∀ line ∈ linesOf bytes, '\n'.toUInt8 ∉ line
  /-- The envelopes of the lines before the first that is no text are taken in, in their order. -/
  taken : (receive q d bytes).1 =
    acceptAll q d (((linesOf bytes).takeWhile isReadable).filterMap decode?)
  /-- They are put into the queue, each with its source. -/
  queued : (receive q d bytes).1.1 =
    ((((linesOf bytes).takeWhile isReadable).filterMap decode?).map Envelope.sourced).foldl
      Queue.push q
  /-- The connection breaks off if a line is no text, and in no other case. -/
  ending : (receive q d bytes).2 = .finished ↔ ∀ line ∈ linesOf bytes, isReadable line = true
  /-- The envelopes of all lines are taken in if none stands behind a line that is no text, and
  in no other case. -/
  complete : (receive q d bytes).1 = acceptAll q d ((linesOf bytes).filterMap decode?) ↔
    ((linesOf bytes).dropWhile isReadable).filterMap decode? = []

/-- What comes in of any bytes is what stands before the first line that is no text. -/
theorem received (q : Queue Envelope) (d : Diagnostics) (bytes : List UInt8) :
    Received q d bytes := by
  have taken : (receive q d bytes).1 =
      acceptAll q d (((linesOf bytes).takeWhile isReadable).filterMap decode?) := by
    rw [receive, ingestAll_eq]
  refine ⟨⟨intercalate_linesOf bytes, fun line => not_mem_of_mem_linesOf⟩, taken, ?_, ?_, ?_⟩
  · rw [taken, acceptAll_queue]
  · rw [receive, ingestAll_eq]
    split <;> simp_all
  · -- All the lines are those that are read and those that are not reached.
    have both := congrArg (List.filterMap decode?)
      (List.takeWhile_append_dropWhile (p := isReadable) (l := linesOf bytes))
    rw [List.filterMap_append] at both
    rw [taken, ← both]
    exact acceptAll_append_inj

/-- A byte that is in no text, alone in its line, and then an envelope. -/
def strayByte : List UInt8 :=
  0xff :: ("\n" ++
    "\x7b\"source_id\":\"svc\",\"counter\":\x7b\"name\":\"b\",\"total\":1\x7d\x7d\n").toList.map
    Char.toUInt8

/-- The envelope that stands behind it. -/
def behindStrayByte : Envelope := ⟨"svc", "", .empty, some (.counter ⟨"b", 0, 1⟩)⟩

/-- The envelope is not taken in. -/
theorem strayByte_loses :
    (linesOf strayByte).filterMap decode? = [behindStrayByte] ∧
      (receive (.new 2) {} strayByte).1.1.items = [] ∧
      ¬ ∀ (q : Queue Envelope) (d : Diagnostics) (bytes : List UInt8),
        (receive q d bytes).1.1 =
          (((linesOf bytes).filterMap decode?).map Envelope.sourced).foldl Queue.push q := by
  have one : (linesOf strayByte).filterMap decode? = [behindStrayByte] := by
    decide +kernel
  have nothing : (receive (.new 2) {} strayByte).1.1.items = [] := by decide +kernel
  refine ⟨one, nothing, fun all => ?_⟩
  have same := congrArg Queue.items (all (.new 2) {} strayByte)
  rw [nothing, one] at same
  exact absurd same (by decide)

end Intake

end Telemetry
