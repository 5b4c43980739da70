import EosBase.Lib.Table
import EosBase.Redox.Syscall

/-!
# Lines of the log

`write`, `write_logs` and the threads of `logd/src/scheme.rs`.  What a process has
written to a handle since its last newline is kept in a buffer of its own, and a record is
sent for each line.  A record is modelled with its writer: the handle and the process.
-/

namespace EosBase.Logd

open Redox Table List

def newline : UInt8 := 10

inductive LogHandle where
  | log (context : List UInt8) (bufs : Table Nat (List UInt8))
  | addSink
  | schemeRoot

def heading (context : List UInt8) : List UInt8 :=
  if context = [] then [] else context ++ [58, 32]

/-- `write_logs`: the buffer, and the records that are sent. -/
def writeLogs (context : List UInt8) : (handleBuf buf : List UInt8) → List UInt8 × List (List UInt8)
  | handleBuf, [] => (handleBuf, [])
  | handleBuf, b :: buf =>
    let started := if handleBuf = [] then heading context else handleBuf
    if b = newline then
      let (after, records) := writeLogs context [] buf
      (after, (started ++ [b]) :: records)
    else
      writeLogs context (started ++ [b]) buf

abbrev LogScheme := Table Nat LogHandle

structure Write where
  id : Nat
  pid : Nat
  buf : List UInt8

abbrev Sent := (Nat × Nat) × List UInt8

def write (this : LogScheme) (request : Write) : LogScheme × List Sent × Result Nat :=
  match this.get? request.id with
  | none => (this, [], .error .EBADF)
  | some (.log context bufs) =>
    let (after, records) :=
      writeLogs context ((bufs.get? request.pid).getD []) request.buf
    (this.insert request.id (.log context (bufs.insert request.pid after)),
      records.map ((request.id, request.pid), ·), .ok request.buf.length)
  | some _ => (this, [], .error .EBADF)

def run (this : LogScheme) : List Write → List Sent
  | [] => []
  | request :: rest => (write this request).2.1 ++ run (write this request).1 rest

/-- The complete lines of a stream, of which the first goes on after `rest`. -/
def lines (rest : List UInt8) : List UInt8 → List (List UInt8)
  | [] => []
  | b :: stream =>
    if b = newline then (rest ++ [b]) :: lines [] stream else lines (rest ++ [b]) stream

def remainder (rest : List UInt8) : List UInt8 → List UInt8
  | [] => rest
  | b :: stream => if b = newline then remainder [] stream else remainder (rest ++ [b]) stream

def bytesOf (writer : Nat × Nat) (writes : List Write) : List UInt8 :=
  (writes.filter fun request => (request.id, request.pid) = writer).flatMap Write.buf

def recordsOf (writer : Nat × Nat) (sent : List Sent) : List (List UInt8) :=
  (sent.filter fun entry => entry.1 = writer).map Prod.snd

/-- The buffer of a writer that has begun a line. -/
def shown (context rest : List UInt8) : List UInt8 :=
  if rest = [] then [] else heading context ++ rest

variable {context rest : List UInt8}

theorem writeLogs_shown (buf : List UInt8) : writeLogs context (shown context rest) buf =
    (shown context (remainder rest buf), (lines rest buf).map (heading context ++ ·)) := by
  induction buf generalizing rest with
  | nil => rfl
  | cons b buf ih =>
    have started : (if shown context rest = [] then heading context else shown context rest) =
        heading context ++ rest := by
      unfold shown
      by_cases empty : rest = [] <;> simp [empty]
    have next : shown context (rest ++ [b]) = heading context ++ (rest ++ [b]) := by simp [shown]
    rw [writeLogs, remainder, lines]
    simp only [started, append_assoc, ← next]
    split
    · have fresh : writeLogs context (shown context []) buf = _ := ih
      rw [show shown context [] = [] from rfl] at fresh
      rw [fresh, next]
      rfl
    · exact ih

theorem lines_append (first second : List UInt8) :
    lines rest (first ++ second) = lines rest first ++ lines (remainder rest first) second := by
  induction first generalizing rest with
  | nil => rfl
  | cons b first ih =>
    simp only [cons_append, lines, remainder]
    split <;> simp [ih]

theorem recordsOf_append {writer : Nat × Nat} (first second : List Sent) :
    recordsOf writer (first ++ second) = recordsOf writer first ++ recordsOf writer second := by
  simp [recordsOf]

theorem recordsOf_map {writer : Nat × Nat} {sender} {records : List (List UInt8)} :
    recordsOf writer (records.map (sender, ·)) = if sender = writer then records else [] := by
  unfold recordsOf
  split
  next own => simp [own, filter_map, Function.comp_def]
  next other => simp [other, filter_map, Function.comp_def]

variable {this : LogScheme} {id pid : Nat} {bufs : Table Nat (List UInt8)} {request : Write}

/-- What others write neither sends a record of a writer nor changes its buffer. -/
theorem write_other (found : this.get? id = some (.log context bufs))
    (other : (request.id, request.pid) ≠ (id, pid)) :
    recordsOf (id, pid) (write this request).2.1 = [] ∧
      ∃ after, (write this request).1.get? id = some (.log context after) ∧
        after.get? pid = bufs.get? pid := by
  unfold write
  split
  · exact ⟨rfl, bufs, found, rfl⟩
  next context' bufs' open_ =>
    refine ⟨by rw [recordsOf_map, if_neg other], ?_⟩
    rw [get?_insert]
    split
    next same =>
      subst same
      cases open_.symm.trans found
      refine ⟨_, rfl, get?_insert_of_ne _ ?_⟩
      rintro rfl
      exact other rfl
    · exact ⟨bufs, found, rfl⟩
  · exact ⟨rfl, bufs, found, rfl⟩

theorem run_records (writes : List Write) (found : this.get? id = some (.log context bufs))
    (held : (bufs.get? pid).getD [] = shown context rest) :
    recordsOf (id, pid) (run this writes) =
      (lines rest (bytesOf (id, pid) writes)).map (heading context ++ ·) := by
  induction writes generalizing this bufs rest with
  | nil => rfl
  | cons request writes ih =>
    rw [run, recordsOf_append, bytesOf, filter_cons]
    by_cases own : (request.id, request.pid) = (id, pid)
    · cases own
      rw [if_pos (by simp), flatMap_cons, lines_append, map_append]
      simp only [write, found, held, writeLogs_shown, recordsOf_map, if_true]
      congr 1
      apply ih (get?_insert_self _ _ _)
      rw [get?_insert_self]
      rfl
    · obtain ⟨silent, after, still, same⟩ := write_other found own
      rw [silent, if_neg (by simpa using own)]
      exact ih still (same ▸ held)

theorem run_silent (writes : List Write)
    (other : ∀ context bufs, this.get? id ≠ some (.log context bufs)) :
    recordsOf (id, pid) (run this writes) = [] := by
  induction writes generalizing this with
  | nil => rfl
  | cons request writes ih =>
    rw [run, recordsOf_append, write]
    split
    · exact ih other
    next context bufs open_ =>
      have different : id ≠ request.id := by
        rintro rfl
        exact other _ _ open_
      rw [recordsOf_map, if_neg (by simp [different.symm])]
      apply ih
      rwa [get?_insert_of_ne _ different]
    · exact ih other

/-- The records of a writer are its complete lines, however they were written. -/
theorem records_whole (this : LogScheme) (writes : List Write) (id pid : Nat)
    (fresh : ∀ context bufs, this.get? id = some (.log context bufs) → bufs.get? pid = none) :
    recordsOf (id, pid) (run this writes) =
      match this.get? id with
      | some (.log context _) => (lines [] (bytesOf (id, pid) writes)).map (heading context ++ ·)
      | _ => [] := by
  split
  next context bufs found => exact run_records writes found (by rw [fresh _ _ found]; rfl)
  next other => exact run_silent writes other

/-- Two processes write to one handle. -/
theorem records_whole_interleaved :
    recordsOf (1, 5) (run (Table.empty.insert 1 (.log [97] .empty))
      [⟨1, 5, [104]⟩, ⟨1, 6, [120, 10]⟩, ⟨1, 5, [105, 10]⟩]) = [[97, 58, 32, 104, 105, 10]] := by
  refine (records_whole _ _ 1 5 ?_).trans rfl
  rintro context bufs found
  cases found
  rfl

def kernel : List UInt8 := [107, 101, 114, 110, 101, 108]

/-- The thread that copies the log of the kernel, with what its reads return: all of its
buffer goes to `write_logs`, also what is left behind `text` from the reads before. -/
def kernelLog (handleBuf buf : List UInt8) : (reads : List (List UInt8)) → List (List UInt8)
  | [] | [] :: _ => []
  | text :: reads =>
    let buf := text ++ buf.drop text.length
    let (after, records) := writeLogs kernel handleBuf (heading kernel ++ buf)
    records ++ kernelLog after buf reads

def kernelThread (reads : List (List UInt8)) : List (List UInt8) :=
  kernelLog [] (replicate (4096 - (heading kernel).length) 0) reads

theorem lines_line {line : List UInt8} (within : newline ∉ line) (stream : List UInt8) :
    lines rest (line ++ stream) = lines (rest ++ line) stream ∧
      remainder rest (line ++ stream) = remainder (rest ++ line) stream := by
  induction line generalizing rest with
  | nil => simp
  | cons b line ih =>
    have other : b ≠ newline := (ne_of_not_mem_cons within).symm
    simp [lines, remainder, other, ih (not_mem_of_not_mem_cons within)]

/-- A line is sent after all that the buffer held behind the line before, and with its
heading twice. -/
theorem kernelLog_line {line buf : List UInt8} (within : newline ∉ line)
    (outside : newline ∉ buf.drop (line.length + 1)) (reads : List (List UInt8)) :
    kernelLog (shown kernel rest) buf ((line ++ [newline]) :: reads) =
      (heading kernel ++ (rest ++ heading kernel ++ line ++ [newline])) ::
        kernelLog (shown kernel (buf.drop (line.length + 1)))
          (line ++ newline :: buf.drop (line.length + 1)) reads := by
  have plain : newline ∉ heading kernel := by decide
  have last := @lines_line [] _ outside []
  rw [append_nil] at last
  rw [kernelLog, writeLogs_shown, length_append, length_singleton, append_assoc,
    (lines_line plain _).1, (lines_line plain _).2, (lines_line within _).1,
    (lines_line within _).2, singleton_append, lines, remainder, if_pos rfl, if_pos rfl, last.1,
    last.2]
  · rfl
  · simp

theorem kernelThread_stale {first second : List UInt8} (before : newline ∉ first)
    (after : newline ∉ second) (longer : first.length ≤ second.length) :
    kernelThread [first ++ [newline], second ++ [newline]] =
      [heading kernel ++ (heading kernel ++ first ++ [newline]), heading kernel ++
        (replicate (4088 - (first.length + 1)) 0 ++ heading kernel ++ second ++ [newline])] := by
  have zeros (count : Nat) : newline ∉ replicate count 0 := fun member =>
    absurd (eq_of_mem_replicate member) (by decide)
  have later : newline ∉
      (first ++ newline :: replicate (4088 - (first.length + 1)) 0).drop (second.length + 1) := by
    rw [drop_append, drop_of_length_le (by omega), Nat.sub_add_comm longer, drop_succ_cons,
      drop_replicate]
    exact zeros _
  have early : newline ∉ (replicate 4088 0).drop (first.length + 1) := by
    rw [drop_replicate]
    exact zeros _
  refine (@kernelLog_line [] _ _ before early _).trans (congrArg _ ?_)
  rw [drop_replicate, kernelLog_line after later]
  rfl

inductive OutputCmd where
  | log (line : Sent)
  | addSink (logFd : Nat)

/-- The output thread: the sinks, with what was written to them, and the lines kept for
later ones.  A sink takes every line whole. -/
structure Output where
  files : List (Nat × List Sent)
  logs : List Sent

@[irreducible]
def kept : Nat := 1000

/-- What `pop_front` leaves when there are more lines than are kept. -/
def latest (logs : List Sent) : List Sent := logs.drop (logs.length - kept)

def Output.handle (this : Output) : OutputCmd → Output
  | .log line =>
    ⟨this.files.map fun (file, written) => (file, written ++ [line]), latest (this.logs ++ [line])⟩
  | .addSink logFd => { this with files := this.files ++ [(logFd, this.logs)] }

def output (commands : List OutputCmd) : Output := commands.foldl .handle ⟨[], []⟩

def logged (commands : List OutputCmd) : List Sent :=
  commands.filterMap fun | .log line => some line | .addSink _ => none

theorem latest_append (logs : List Sent) (line : Sent) :
    latest (latest logs ++ [line]) = latest (logs ++ [line]) := by
  unfold latest
  rw [← drop_append_of_le_length (Nat.sub_le _ _), drop_drop]
  refine congrArg (drop · _) ?_
  simp only [length_drop, length_append, length_singleton]
  omega

theorem foldl_handle (commands : List OutputCmd) {this : Output} {all}
    (held : this.logs = latest all) :
    (commands.foldl .handle this).logs = latest (all ++ logged commands) ∧
      ∀ file written, (file, written) ∈ this.files →
        (file, written ++ logged commands) ∈ (commands.foldl .handle this).files := by
  induction commands generalizing this all with
  | nil => simpa [logged] using held
  | cons command commands ih =>
    cases command with
    | log line =>
      have next : (this.handle (.log line)).logs = latest (all ++ [line]) := by
        rw [← latest_append, ← held]
        rfl
      obtain ⟨logs, files⟩ := ih next
      refine ⟨by simpa [logged] using logs, fun file written open_ => ?_⟩
      simpa [logged] using files file (written ++ [line]) (mem_map.mpr ⟨_, open_, rfl⟩)
    | addSink logFd =>
      obtain ⟨logs, files⟩ := @ih (this.handle (.addSink logFd)) all held
      exact ⟨logs, fun file written open_ => files file written (mem_append_left _ open_)⟩

end EosBase.Logd
