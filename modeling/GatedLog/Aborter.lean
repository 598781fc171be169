import GatedLog.Record

/-!
# Aborters

The aborter is the last step of a record of the highest severity.  It never
returns: either it ends the process, or it leaves for the nearest caller that
catches it.  An aborter of the second kind may first announce the abort by a
record of its own; that record must not abort in turn.
-/

namespace GatedLog

/-- A record with which an aborter announces itself; it does not abort. -/
structure Announcement where
  record : Record
  quiet : record.severity.aborts = false

/-- What happens after the lines of a record of the highest severity. -/
inductive Aborter where
  /-- The process ends abnormally. -/
  | terminate
  /-- The call is noted under a name and leaves for the nearest catching caller. -/
  | unwind (id : String) (announcement : Option Announcement)

end GatedLog
