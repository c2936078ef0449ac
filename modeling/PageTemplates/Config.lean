import PageTemplates.Site.Settings
import PageTemplates.Text.Blank
import PageTemplates.Text.Quoted
import PageTemplates.Text.Utf8
import PageTemplates.Toml.Document

/-!
Configuration of a site, read from a TOML document.  Everything has a default, and what is not known is
left alone.
-/

namespace PageTemplates.Config

structure Templates where
  dir : Text
  cache : Bool
  stream : Bool
  /-- Whether all pages are compiled at the start. -/
  warmUp : Bool
deriving Repr, DecidableEq

structure Server where
  host : Text
  port : Nat
deriving Repr, DecidableEq

def Templates.default : Templates :=
  ⟨"templates".toList, false, false, false⟩

def Server.default : Server :=
  ⟨"127.0.0.1".toList, 8080⟩

def text? : Toml → Option Text
  | .text t => some t
  | _ => none

def bool? : Toml → Option Bool
  | .bool b => some b
  | _ => none

/-- A value as the number of a port. -/
def port? : Toml → Option Nat
  | .integer n => if 0 ≤ n ∧ n < 65536 then some n.toNat else none
  | _ => none

/-- What a section says: its entries by name, or its values in the order of their fields.  A time says
nothing. -/
def find? : Toml → Option (Text → Nat → Option Toml)
  | .table _ entries => some fun name _ => entries.lookup name
  | .tables before last => some fun _ i => (before ++ [.table .header last])[i]?
  | .array items => some fun _ i => items[i]?
  | .time => some fun _ _ => none
  | _ => none

/-- A field of a section, its default when it is missing. -/
def field {α : Type} (v : Option Toml) (read : Toml → Option α) (default : α) : Option α :=
  match v with
  | none => some default
  | some v => read v

def Templates.ofToml? (table : Toml) : Option Templates := do
  let find ← find? table
  let dir ← field (find "dir".toList 0) text? default.dir
  let cache ← field (find "cache".toList 1) bool? default.cache
  let stream ← field (find "stream".toList 2) bool? default.stream
  let warmUp ← field (find "warm_up".toList 3) bool? default.warmUp
  return ⟨dir, cache, stream, warmUp⟩

def Server.ofToml? (table : Toml) : Option Server := do
  let find ← find? table
  let host ← field (find "host".toList 0) text? default.host
  let port ← field (find "port".toList 1) port? default.port
  return ⟨host, port⟩

end Config

structure Config where
  templates : Config.Templates
  server : Config.Server
deriving Repr, DecidableEq

namespace Config

def default : Config :=
  ⟨.default, .default⟩

/-- The configuration that a document says; a blank one says nothing.  None when it is no document, or
when something in it has the wrong type. -/
def parse? (document : Text) : Option Config :=
  if document.all Text.isBlank then some default
  else do
    let entries ← Toml.parse? document
    let templates ← field (entries.lookup "templates".toList) Templates.ofToml? .default
    let server ← field (entries.lookup "server".toList) Server.ofToml? .default
    return ⟨templates, server⟩

/-- What is found where a configuration file is looked for. -/
inductive File where
  | missing
  | directory
  | content (bytes : Utf8.Bytes)

/-- The configuration in a file; a missing one says nothing.  The words of a failure name the file. -/
def load (path : Text) (file : File) : Except String Config :=
  let unreadable := s!"Failed to read config file: {path.quoted}"
  match file with
  | .missing => .ok default
  | .directory => .error unreadable
  | .content bytes =>
    match Utf8.decode bytes with
    | .error _ => .error unreadable
    | .ok document =>
      match parse? document with
      | some config => .ok config
      | none => .error s!"Failed to parse config file: {path.quoted}"

def settings (config : Config) : Site.Settings :=
  { Site.Settings.plain with cached := config.templates.cache, streamed := config.templates.stream }

def address (config : Config) : Text :=
  config.server.host ++ ':' :: Text.ofNat config.server.port

end Config
end PageTemplates
