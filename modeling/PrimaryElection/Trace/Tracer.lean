import PrimaryElection.Node.Event
import PrimaryElection.Roster

/-!
Tracers. A tracer follows the opening, marking and closing of spans. A recorder keeps every span that was
opened, with all attributes; an exporter hands on the spans that have ended, with the failures that ended
them and the attributes that were set last; the absent tracer keeps nothing.
-/

namespace PrimaryElection.Trace

structure Span where
  name : String
  attributes : Roster Value

structure Recorder where
  spans : List (Nat × Span) := []
  stack : List Nat := []
  opened : Nat := 0
  deriving Inhabited

namespace Recorder

def openSpan (r : Recorder) (name : String) (attributes : List (Text × Value)) : Recorder :=
  { spans := r.spans ++ [(r.opened, ⟨name, .ofList attributes⟩)]
    stack := r.opened :: r.stack
    opened := r.opened + 1 }

def mark (r : Recorder) (key : Text) (value : Value) : Recorder :=
  match r.stack with
  | [] => r
  | serial :: _ =>
    { r with spans := r.spans.map fun (i, s) =>
        (i, if i = serial then ⟨s.name, s.attributes.insert key value⟩ else s) }

def closeSpan (r : Recorder) : Recorder := { r with stack := r.stack.tail }

-- the spans that are open stay open
def clear (r : Recorder) : Recorder := { r with spans := [] }

def recorded (r : Recorder) : List Span := r.spans.map Prod.snd

def names (r : Recorder) : List String := r.recorded.map Span.name

def find (r : Recorder) (name : String) : List Span := r.recorded.filter fun s => s.name = name

end Recorder

structure Ended where
  span : Span
  nested : Bool
  failure : Option Failure

structure Exporter where
  stack : List Span := []
  ended : List Ended := []
  deriving Inhabited

def attributeLimit : Nat := 128

mutual

def exportable : Value → Value
  | .list items => .list (exportableItems items)
  | .record fields => .record (exportableFields fields)
  | v => v

def exportableItems : List Value → List Value
  | [] => []
  | v :: rest => exportable v :: exportableItems rest

def exportableFields : List (Text × Value) → List (Text × Value)
  | [] => []
  | (name, v) :: rest =>
    if name.isEmpty then exportableFields rest else (name, exportable v) :: exportableFields rest

end

/--
Sets an attribute of a span that is to be exported. The attribute becomes the youngest; where there is no
room for another one the oldest is dropped.
-/
def Span.set (s : Span) (key : Text) (value : Value) : Span :=
  if key.isEmpty then s
  else
    let others := s.attributes.erase key
    let kept := if others.size < attributeLimit then others else others.dropFirst
    ⟨s.name, kept.insert key (exportable value)⟩

namespace Exporter

def openSpan (e : Exporter) (name : String) (attributes : List (Text × Value)) : Exporter :=
  { e with stack := attributes.foldl (fun s a => s.set a.1 a.2) ⟨name, .empty⟩ :: e.stack }

def mark (e : Exporter) (key : Text) (value : Value) : Exporter :=
  match e.stack with
  | [] => e
  | s :: outer => { e with stack := s.set key value :: outer }

def closeSpan (e : Exporter) (failure : Option Failure) : Exporter :=
  match e.stack with
  | [] => e
  | s :: outer => { stack := outer, ended := e.ended ++ [⟨s, !outer.isEmpty, failure⟩] }

end Exporter

inductive Tracer
  | absent
  | recorder (r : Recorder)
  | exporter (e : Exporter)

inductive Kind
  | absent
  | recorder
  | exporter
  deriving DecidableEq, Repr, Inhabited

def Kind.start : Kind → Tracer
  | .absent => .absent
  | .recorder => .recorder {}
  | .exporter => .exporter {}

namespace Tracer

def enabled : Tracer → Bool
  | absent => false
  | _ => true

def openSpan (name : String) (attributes : List (Text × Value)) : Tracer → Tracer
  | absent => absent
  | recorder r => recorder (r.openSpan name attributes)
  | exporter e => exporter (e.openSpan name attributes)

def mark (key : Text) (value : Value) : Tracer → Tracer
  | absent => absent
  | recorder r => recorder (r.mark key value)
  | exporter e => exporter (e.mark key value)

def closeSpan (failure : Option Failure) : Tracer → Tracer
  | absent => absent
  | recorder r => recorder r.closeSpan
  | exporter e => exporter (e.closeSpan failure)

def forget : Tracer → Tracer
  | absent => absent
  | recorder r => recorder r.clear
  | exporter e => exporter { e with ended := [] }

def follow (t : Tracer) : Event → Tracer
  | .opened hook attributes => t.openSpan hook.spanName (attributes.map fun a => (a.1.key, a.2))
  | .marked key value => t.mark key.key value
  | .closed _ failure => t.closeSpan failure
  | _ => t

end Tracer

end PrimaryElection.Trace
