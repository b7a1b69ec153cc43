import Mathlib.Data.List.Infix
import Mathlib.Logic.Function.Basic

/-!
# Sessions on one row

Concurrent sessions of a database on one row of a table. A write holds the row to
the end of its transaction, and so does a reader that asks for a share lock. Beside
the row there are a log, numbered by a sequence that no rollback takes back, and
marks, one of each kind. A session reads what is committed and its own writes, and a
statement that finds a lock of another session waits.
-/

namespace FactoryServer.RowSessions

/-- A version of the row. -/
structure Version (D : Type) where
  /-- Writes are numbered as they happen. -/
  number : ℕ
  /-- The stamp that the write gave it. -/
  stamp : ℕ
  /-- The columns. -/
  data : D

/-- Where a row of the log comes from. -/
inductive Origin (B D : Type) where
  /-- The session that made the write of this number. -/
  | write (number : ℕ)
  /-- A builder, from this version. -/
  | build (builder : B) (version : Version D)
  /-- Neither. -/
  | other

/-- A row of the log. -/
structure LogRow (B D I : Type) where
  /-- Its number in the sequence. -/
  seq : ℕ
  /-- What it says. -/
  item : I
  /-- History: where it comes from. -/
  origin : Origin B D
  /-- History: the committed row when it was inserted. -/
  found : Option (Version D)

/-- A mark. -/
structure Mark (N : Type) where
  /-- When it was made. -/
  stamp : ℕ
  /-- Its other columns. -/
  note : N
  /-- History: the write it was made for. -/
  maker : ℕ

/-- What a session has written and not committed. -/
structure Session (K B D I N : Type) where
  /-- The row. -/
  written : Option (Version D)
  /-- Rows of the log. -/
  log : List (LogRow B D I)
  /-- Marks: made, or deleted. -/
  marks : K → Option (Option (Mark N))

/-- No transaction. -/
def Session.empty {K B D I N : Type} : Session K B D I N := ⟨none, [], fun _ => none⟩

/-- The database. -/
structure Database (K B D I N : Type) where
  /-- The committed row. -/
  row : Option (Version D)
  /-- The session that has written the row and not committed. -/
  writer : Option ℕ
  /-- The sessions that hold a share lock. -/
  readers : List ℕ
  /-- The committed rows of the log. -/
  log : List (LogRow B D I)
  /-- The next number of the sequence. -/
  nextSeq : ℕ
  /-- The committed marks. -/
  marks : K → Option (Mark N)
  /-- The sessions that have touched a mark and not committed. -/
  markers : K → Option ℕ
  /-- The sessions. -/
  sessions : ℕ → Session K B D I N
  /-- History: every version written, the last one first. -/
  versions : List (Version D)

namespace Database

variable {K B D I N : Type}

/-- Empty tables. -/
def initial : Database K B D I N where
  row := none
  writer := none
  readers := []
  log := []
  nextSeq := 0
  marks _ := none
  markers _ := none
  sessions _ := Session.empty
  versions := []

/-- Assign a session. -/
def setSession (s : Database K B D I N) (p : ℕ) (session : Session K B D I N) :
    Database K B D I N :=
  { s with sessions := Function.update s.sessions p session }

/-- Insert or update the row, under a stamp that no write has had. -/
def write (s : Database K B D I N) (p : ℕ) (data : D) (stamp : ℕ) :
    Option (Database K B D I N) :=
  if s.writer = none ∧ s.readers = [] ∧ ∀ v ∈ s.versions, v.stamp ≠ stamp then
    some { s.setSession p { s.sessions p with written := some ⟨s.versions.length, stamp, data⟩ } with
      writer := some p
      versions := ⟨s.versions.length, stamp, data⟩ :: s.versions }
  else none

/-- Delete the row, at once. -/
def remove (s : Database K B D I N) : Option (Database K B D I N) :=
  if s.writer = none ∧ s.readers = [] then some { s with row := none } else none

/-- Select the row for share. A row that is not there is not locked. -/
def share (s : Database K B D I N) (p : ℕ) : Option (Option (Version D) × Database K B D I N) :=
  match s.row with
  | none => some (none, s)
  | some v => if s.writer = none then some (some v, { s with readers := p :: s.readers }) else none

/-- Insert a row of the log. -/
def append (s : Database K B D I N) (p : ℕ) (item : I) (origin : Origin B D) :
    Database K B D I N :=
  { s.setSession p { s.sessions p with
      log := (s.sessions p).log ++ [⟨s.nextSeq, item, origin, s.row⟩] } with
    nextSeq := s.nextSeq + 1 }

/-- Take back the rows of the log that came after a savepoint. -/
def restore (s : Database K B D I N) (p : ℕ) (log : List (LogRow B D I)) : Database K B D I N :=
  s.setSession p { s.sessions p with log := log }

/-- Another table's use of the sequence. -/
def skip (s : Database K B D I N) : Database K B D I N := { s with nextSeq := s.nextSeq + 1 }

/-- The transaction of a session ends, and with it its locks. -/
def release (s : Database K B D I N) (p : ℕ) : Database K B D I N :=
  { s.setSession p Session.empty with
    writer := if s.writer = some p then none else s.writer
    readers := s.readers.filter fun q => q ≠ p
    markers := fun k => if s.markers k = some p then none else s.markers k }

/-- `ROLLBACK`. -/
def rollback (s : Database K B D I N) (p : ℕ) : Database K B D I N := s.release p

/-- `COMMIT`. -/
def commit (s : Database K B D I N) (p : ℕ) : Database K B D I N :=
  { s.release p with
    row := (s.sessions p).written.or s.row
    log := s.log ++ (s.sessions p).log
    marks := fun k => ((s.sessions p).marks k).getD (s.marks k) }

variable [DecidableEq K]

/-- Touch a mark. -/
def touch (s : Database K B D I N) (p : ℕ) (k : K) (mark : Option (Mark N)) :
    Database K B D I N :=
  { s.setSession p { s.sessions p with
      marks := Function.update (s.sessions p).marks k (some mark) } with
    markers := Function.update s.markers k (some p) }

/-- Insert or update a mark. -/
def setMark (s : Database K B D I N) (p : ℕ) (k : K) (mark : Mark N) :
    Option (Database K B D I N) :=
  if s.markers k = none ∨ s.markers k = some p then some (s.touch p k (some mark)) else none

/-- Delete a mark of a stamp: answers the mark that the statement has deleted. -/
def deleteMark (s : Database K B D I N) (p : ℕ) (k : K) (stamp : ℕ) :
    Option (Option (Mark N) × Database K B D I N) :=
  match s.marks k with
  | none => some (none, s)
  | some mark =>
    if mark.stamp = stamp then
      if s.markers k = none then some (some mark, s.touch p k none) else none
    else some (none, s)

/-- Change the other columns of a mark, at once. -/
def updateNote (s : Database K B D I N) (k : K) (f : N → N) : Option (Database K B D I N) :=
  if s.markers k = none then
    some { s with
      marks := Function.update s.marks k
        ((s.marks k).map fun mark => { mark with note := f mark.note }) }
  else none

end Database

end FactoryServer.RowSessions
