import DocStore.Config.Basic
import DocStore.Path.Address
import DocStore.Text.Quoted

/-!
# Databases and references

A database is a valid configuration together with the channel that carries its
requests. Two databases count as equal when they have the same name and the same
endpoint, whatever channel they use. A reference is an address in a database.
-/

set_option autoImplicit false

namespace DocStore

abbrev Channel := Nat

structure Database where
  config : Config
  channel : Channel
  valid : config.Valid
  deriving DecidableEq

namespace Database

def open? (config : Config) (channel : Channel) : Except ConfigError Database :=
  match h : config.defect? with
  | some d => .error (.invalid d)
  | none => .ok ⟨config, channel, h⟩

def rootPath (db : Database) : String := db.config.rootPath

def endpoint (db : Database) : String := db.config.endpoint

def describe (db : Database) : String :=
  "Database \x7b root_path: " ++ quoted db.rootPath ++ ", endpoint: " ++ quoted db.endpoint ++
    " \x7d"

instance : BEq Database where
  beq a b := a.rootPath == b.rootPath && a.endpoint == b.endpoint

end Database

structure Reference where
  address : Address
  database : Database
  deriving DecidableEq

namespace Reference

instance : BEq Reference where
  beq a b := a.address == b.address && a.database == b.database

def path (r : Reference) : String := r.address.toString

def id (r : Reference) : String := r.address.id

def isRoot (r : Reference) : Bool := r.address.isRoot

def isCollection (r : Reference) : Bool := r.address.isCollection

def isDocument (r : Reference) : Bool := r.address.isDocument

def below (r : Reference) (start : String) : String :=
  if r.isRoot then start else start ++ String.singleton separator ++ r.path

def name (r : Reference) : String := r.below r.database.rootPath

def endpoint (r : Reference) : String := r.below r.database.endpoint

def parent (r : Reference) : Except PathError Reference :=
  r.address.parent.map fun a => ⟨a, r.database⟩

def parentCollection (r : Reference) : Except PathError Reference :=
  r.address.parentCollection.map fun a => ⟨a, r.database⟩

def child (r : Reference) (path : String) : Reference := ⟨r.address.child path, r.database⟩

end Reference

namespace Database

def reference (db : Database) (path : String) : Reference := ⟨.parse path, db⟩

def textAfter? (start text : List Char) : Option (List Char) :=
  if start.isPrefixOf text then some (text.drop start.length) else none

def referenceFromName? (db : Database) (name : String) : Option Reference :=
  match textAfter? db.rootPath.toList name.toList with
  | none => none
  | some rest =>
    if rest = [] ∨ rest.head? = some separator then some (db.reference (String.ofList rest))
    else none

end Database

end DocStore
