import RouterConfig.Dns
import RouterConfig.Filter.Interface
import RouterConfig.Route
import RouterConfig.Schedule
import RouterConfig.Table

/-!
# Gathering line by line

A program that reads a configuration takes one line after the other.  It keeps
the records that are under way in a table, adds to them or rejects the line, and
notes which of them a line has spoiled.  When all lines are read, the records
that are not spoiled are checked, in the order in which they were opened.

Here this is written down as it goes, for the scanner and for the features whose
records are put together from several lines.  What these come to is described
elsewhere without a table that changes: a stanza is read off the places of its
lines, and each record off all lines with its key.
-/

namespace RouterConfig

open Text

/-! ## Scanning -/

namespace Stanza

/-- Nothing was scanned. -/
def empty : Stanza := ⟨[], [], 0⟩

/-- Stores a line where it goes.  A header opens its group, if it is not there. -/
def store (s : Stanza) (line : Line) : Place → Stanza
  | .skipped => { s with skipped := s.skipped + 1 }
  | .header key => { s with contexts := Table.change key [] id s.contexts }
  | .leave => s
  | .inside key => { s with contexts := Table.change key [] (· ++ [line]) s.contexts }
  | .top => { s with topLevel := s.topLevel ++ [line] }

variable {π : Type} [LinePattern π]

/-- Takes in one line, and what is open behind it. -/
def scanLine (definitions : List (ContextDefinition π)) (state : Stanza × OpenContext π)
    (line : Line) : Stanza × OpenContext π :=
  let (place, opened) := Scanner.place definitions state.2 line
  (state.1.store line place, opened)

/-- Scans lines one after the other. -/
def scanLines (definitions : List (ContextDefinition π)) (lines : List Line) : Stanza :=
  (lines.foldl (scanLine definitions) (empty, none)).1

end Stanza

/-! ## What has been gathered -/

/-- What has been gathered from the lines so far. -/
@[ext]
structure Gathered (κ β ρ : Type) where
  /-- The lines that were rejected. -/
  decoded : Decoded ρ := .empty
  /-- The records that are under way. -/
  table : Table κ β := []
  /-- The keys of those that a line has spoiled. -/
  spoiled : List κ := []

namespace Gathered

variable {κ β ρ : Type}

/-- Rejects a line, which may spoil the record under a key. -/
def reject (g : Gathered κ β ρ) (feature : String) (line : Line) (reason : RejectReason)
    (spoils : Option κ) : Gathered κ β ρ :=
  { g with decoded := g.decoded ++ .rejected feature line reason
           spoiled := g.spoiled ++ spoils.toList }

/-- What is decoded in the end, where `complete` decodes an entry of the table. -/
def finish [BEq κ] (g : Gathered κ β ρ) (complete : κ → β → Decoded ρ) : Decoded ρ :=
  g.table.foldl
    (fun decoded e => if g.spoiled.contains e.1 then decoded else decoded ++ complete e.1 e.2)
    g.decoded

end Gathered

/-! ## Routes -/

namespace StaticRoute

/-- Takes in one line: its gateways stand behind those that are there. -/
def gather (g : Gathered Network (Line × List NextHop) StaticRoute) (r : Reading) :
    Gathered Network (Line × List NextHop) StaticRoute :=
  match r.content with
  | .error fault => g.reject featureName r.line (.malformed fault) none
  | .ok (network, .error fault) => g.reject featureName r.line (.malformed fault) (some network)
  | .ok (network, .ok hops) =>
    { g with table := Table.change network (r.line, []) (fun e => (e.1, e.2 ++ hops)) g.table }

/-- Decodes lines one after the other. -/
def gatherLines (lines : List Line) : Decoded StaticRoute :=
  ((readings lines).foldl gather {}).finish fun network e =>
    .checked featureName validate e.1 ⟨network, e.2⟩

end StaticRoute

/-! ## Schedules -/

namespace Schedule

/-- Schedules that are under way, each with the line that opened it, and the
numbers of those that are not carried out. -/
@[ext]
structure Gathering extends Gathered ScheduleKey (Line × Schedule) Schedule where
  disabled : List UInt32 := []

namespace Gathering

/-- Rejects a line, which may spoil a schedule. -/
def rejectLine (g : Gathering) (line : Line) (fault : LineFault) (spoils : Option ScheduleKey) :
    Gathering :=
  { g with toGathered := g.reject featureName line (.malformed fault) spoils }

/-- Takes in one line.  A command is put behind those of its number that are
there, if the trigger is the same; a schedule for a session is put in once. -/
def gather (g : Gathering) (r : Reading) : Gathering :=
  match r.content with
  | .error fault => g.rejectLine r.line fault (r.spoils.map .numbered)
  | .ok (.disable id) => { g with disabled := g.disabled ++ [id] }
  | .ok (.command id trigger command) =>
    match Table.lookup? (.numbered id) g.table with
    | some (_, s) =>
      if s.trigger = trigger then
        { g with table := Table.modify (.numbered id)
                  (fun e => (e.1, { e.2 with commands := e.2.commands ++ [command] })) g.table }
      else g.rejectLine r.line (.twoTriggers id) (some (.numbered id))
    | none =>
      { g with table := Table.insert (.numbered id)
                (r.line, { id, trigger, commands := [command] }) g.table }
  | .ok (.session s) =>
    if (Table.lookup? s.key g.table).isSome then
      g.rejectLine r.line (.duplicate "pp schedule") (some s.key)
    else { g with table := Table.insert s.key (r.line, s) g.table }

/-- Switches off the schedule of a number, if there is one. -/
def disable (table : Table ScheduleKey (Line × Schedule)) (id : UInt32) :
    Table ScheduleKey (Line × Schedule) :=
  Table.modify (.numbered id) (fun e => (e.1, { e.2 with enabled := false })) table

/-- Switches off the schedules that are not carried out, wherever the lines stand
that say so. -/
def settle (g : Gathering) : Gathered ScheduleKey (Line × Schedule) Schedule :=
  { g.toGathered with table := g.disabled.foldl disable g.table }

end Gathering

/-- Decodes lines one after the other. -/
def gatherLines (lines : List Line) : Decoded Schedule :=
  ((lines.filterMap readLine?).foldl Gathering.gather {}).settle.finish fun _ e =>
    .checked featureName validate e.1 e.2

end Schedule

/-! ## Filters on interfaces -/

namespace InterfaceFilters

/-- The record with the binding of a direction set. -/
def bind (r : InterfaceFilters) (binding : FilterBinding) : Direction → InterfaceFilters
  | .inbound => { r with inbound := some binding }
  | .outbound => { r with outbound := some binding }

/-- The record of an interface without bindings. -/
def unbound (key : Key) : InterfaceFilters where
  family := key.1
  interface := key.2

/-- Takes in one line: it binds a direction that is not bound. -/
def gather (g : Gathered Key (Line × InterfaceFilters) InterfaceFilters) (r : Reading) :
    Gathered Key (Line × InterfaceFilters) InterfaceFilters :=
  match r.content with
  | .error fault => g.reject featureName r.line (.malformed fault) (some r.key)
  | .ok (direction, binding) =>
    match (Table.lookup? r.key g.table).bind fun e => e.2.binding? direction with
    | some _ =>
      g.reject featureName r.line (.malformed (.duplicate (direction.word ++ " binding")))
        (some r.key)
    | none =>
      { g with table := Table.change r.key (r.line, unbound r.key)
                (fun e => (e.1, e.2.bind binding direction)) g.table }

/-- Decodes lines one after the other. -/
def gatherLines (lines : List Line) : Decoded InterfaceFilters :=
  ((readings lines).foldl gather {}).finish fun _ e => .checked featureName validate e.1 e.2

end InterfaceFilters

/-! ## Choices of name servers -/

namespace DnsServerSelect

/-- Takes in one line.  A record that breaks a rule is rejected at once, and its
number may still be given. -/
def gather (g : Gathered UInt32 DnsServerSelect DnsServerSelect) (r : Reading) :
    Gathered UInt32 DnsServerSelect DnsServerSelect :=
  match r.content with
  | .error fault => g.reject featureName r.line (.malformed fault) none
  | .ok s =>
    if (Table.lookup? s.id g.table).isSome then
      g.reject featureName r.line (.malformed (.duplicate ("selector " ++ numeral s.id))) none
    else
      match validate s with
      | none => { g with table := Table.insert s.id s g.table }
      | some error => g.reject featureName r.line (.breaksRule error) none

/-- Decodes lines one after the other. -/
def gatherLines (lines : List Line) : Decoded DnsServerSelect :=
  ((readings lines).foldl gather {}).finish fun _ s => .single s

end DnsServerSelect

end RouterConfig
