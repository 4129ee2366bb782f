import ReviewRota.Migration
import ReviewRota.Reporting
import ReviewRota.Settings
import ReviewRota.Staffing

/-!
# ReviewRota.Opening

Opening a store.  The settings are validated first.  Then the directories
above the file are made, the file is made or opened, the first connection
is set up, and the migrations that the store has not seen are applied; a
store that has seen them all is left as it is.

A step that fails ends the opening, and what the steps before it have made
stays.
-/

namespace ReviewRota

/-- Why a store cannot be opened. -/
inductive OpeningFault where
  /-- The file could not be opened or a statement failed, with what the
  store said. -/
  | store (message : String)
  /-- A migration failed, with what it said. -/
  | migration (message : String)
  deriving DecidableEq, Repr

namespace OpeningFault

/-- The wording for the log. -/
def text : OpeningFault → String
  | .store message => "SQLite error: " ++ message
  | .migration message => "Migration error: " ++ message

/-- What the caller sees of it. -/
def toError (_ : OpeningFault) : Error := .openingFailed

end OpeningFault

/-- The store once every migration is applied.  With the register out of
service it has seen none of them: the register is made anew, and the tables
are there already. -/
def Store.migrated (s : Store) : Store :=
  if s.offline.contains .register then
    { s with offline := s.offline.filter (· ≠ .register), renewed := .register :: s.renewed }
  else s

/-- The database after it was closed, which gives up what is not committed,
and opened again. -/
def Connection.reopen (c : Connection) : Database := { committed := c.rollback.committed.migrated }

/-- What there is at the path of a store before it is opened. -/
inductive Place where
  /-- Nothing, in a directory that may or may not be there. -/
  | vacant
  /-- Nothing, and something other than a directory above it. -/
  | blocked
  /-- A directory. -/
  | directory
  /-- A file that is no store. -/
  | foreign
  /-- A store. -/
  | store (s : Store)
  deriving DecidableEq, Repr, Inhabited

namespace Place

/-- Whether there is a file at the path. -/
def isFile : Place → Bool
  | .vacant => false
  | .blocked => false
  | .directory => false
  | .foreign => true
  | .store _ => true

/-- Makes or opens the file at a place.  A file that was just made is an
empty store. -/
def openFile : Place → Except OpeningFault Place
  | .vacant => .ok (.store {})
  | .foreign => .ok .foreign
  | .store s => .ok (.store s)
  | .blocked => .error (.migration "Failed to create database directory")
  | .directory => .error (.store "unable to open database file")

/-- Sets up the first connection to an opened file and applies the
migrations. -/
def openStore (settings : Settings) : Place → Except OpeningFault Database
  | .store s =>
    if settings.allowsWaiting then .ok { committed := s.migrated }
    else .error (.store "busy timeout too long")
  | _ => .error (.store "file is not a database")

/-- What is answered when a place is opened, and what is there then. -/
def connect (settings : Settings) (p : Place) : Except Error Database × Place :=
  match settings.validate with
  | .error e => (.error e, p)
  | .ok () =>
    if !settings.allowsConnecting then (.error (OpeningFault.store "pool timed out").toError, p)
    else
      match p.openFile with
      | .error fault => (.error fault.toError, p)
      | .ok opened =>
        match opened.openStore settings with
        | .error fault => (.error fault.toError, opened)
        | .ok db => (.ok db, .store db.committed)

end Place

end ReviewRota
