import FilterSql.Json.Shape
import FilterSql.Sql.Backend

/-!
# Configuration documents

Configuration files as they are written in JSON. Every setting may be left out. Members that are no settings are
remembered by name.
-/

set_option autoImplicit false

namespace FilterSql.Settings

open Json (Reader)

structure LimitsDocument where
  maxDepth : Option Nat := none
  maxInputBytes : Option Nat := none
  maxOrderings : Option Nat := none
  deriving DecidableEq, Repr

/-- Settings that a document makes, and the names of its other members, each once and in the order of their first
appearance. -/
structure Document where
  limits : Option LimitsDocument := none
  backend : Option Backend := none
  unknown : List String := []
  deriving DecidableEq, Repr

namespace LimitsDocument

structure Partial where
  maxDepth : Option (Option Nat) := none
  maxInputBytes : Option (Option Nat) := none
  maxOrderings : Option (Option Nat) := none

def Partial.complete (read : Partial) : LimitsDocument :=
  ⟨read.maxDepth.getD none, read.maxInputBytes.getD none, read.maxOrderings.getD none⟩

def readLimit : Reader (Option Nat) :=
  Json.readOptional Json.readCount

/-- Reads one member of the limits from the text after its key. Other members are read over. -/
def readMember (read : Partial) (key : String) : Reader Partial := fun text =>
  match key with
  | "max_depth" => do
    let (value, rest) ← Json.readOnce key read.maxDepth readLimit text
    .ok ({ read with maxDepth := some value }, rest)
  | "max_input_bytes" => do
    let (value, rest) ← Json.readOnce key read.maxInputBytes readLimit text
    .ok ({ read with maxInputBytes := some value }, rest)
  | "max_orderings" => do
    let (value, rest) ← Json.readOnce key read.maxOrderings readLimit text
    .ok ({ read with maxOrderings := some value }, rest)
  | _ => do
    let rest ← Json.readColon text
    let rest ← Json.skipValue rest
    .ok (read, rest)

/-- Reads the limit at the next place of a list of all limits. -/
def readPlace (index : Nat) : Reader (Option Nat) := fun text => do
  let (found, rest) ← Json.nextItem (index = 0) text
  if found then readLimit rest
  else .error (Json.faultInList (.wrongLength index "struct LimitsFileConfig with 3 elements") rest)

def readPlaces : Reader LimitsDocument := fun text => do
  let (maxDepth, rest) ← readPlace 0 text
  let (maxInputBytes, rest) ← readPlace 1 rest
  let (maxOrderings, rest) ← readPlace 2 rest
  let rest ← Json.closeList rest
  .ok (⟨maxDepth, maxInputBytes, maxOrderings⟩, rest)

def reader (depth : Nat) : Reader LimitsDocument :=
  Json.readFirst fun c rest =>
    if c = '[' then
      if depth = 0 then .error (.upon .nestingLimit (c :: rest)) else readPlaces rest
    else if c = '\x7b' then
      if depth = 0 then .error (.upon .nestingLimit (c :: rest))
      else do
        let (read, rest) ← Json.readObject readMember {} rest
        .ok (read.complete, rest)
    else .error (Json.unexpected "struct LimitsFileConfig" c rest)

end LimitsDocument

namespace Document

structure Partial where
  limits : Option (Option LimitsDocument) := none
  backend : Option (Option Backend) := none
  unknown : List String := []

def Partial.complete (read : Partial) : Document :=
  ⟨read.limits.getD none, read.backend.getD none, read.unknown⟩

/-- Reads one member of a document from the text after its key. -/
def readMember (depth : Nat) (read : Partial) (key : String) : Reader Partial := fun text =>
  match key with
  | "limits" => do
    let (value, rest) ← Json.readOnce key read.limits (Json.readOptional (LimitsDocument.reader depth)) text
    .ok ({ read with limits := some value }, rest)
  | "backend" => do
    let (value, rest) ← Json.readOnce key read.backend (Json.readOptional (Json.readVariant Backend.choices depth)) text
    .ok ({ read with backend := some value }, rest)
  | _ => do
    let rest ← Json.readColon text
    let (_, rest) ← Json.readValue depth rest
    let unknown := if read.unknown.contains key then read.unknown else read.unknown ++ [key]
    .ok ({ read with unknown }, rest)

def reader (depth : Nat) : Reader Document :=
  Json.readFirst fun c rest =>
    if c = '\x7b' then
      match depth with
      | 0 => .error (.upon .nestingLimit (c :: rest))
      | inner + 1 => do
        let (read, rest) ← Json.readObject (readMember inner) {} rest
        .ok (read.complete, rest)
    else .error (Json.unexpected "struct FileConfig" c rest)

def parse (text : String) : Except Json.ParseError Document :=
  Json.readAll (reader Json.maxNesting) text

end Document

end FilterSql.Settings
