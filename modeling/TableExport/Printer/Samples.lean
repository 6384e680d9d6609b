import TableExport.Printer.Basic

/-!
# Sample models

Two small models to try printers on: `itemModel` has one indexed table, `sampleModel` one table or descriptor of every
kind, with texts that need escapes, a repeated key, and a table that no client output includes.
-/

namespace TableExport.Samples

/-- The version that goes with the samples. -/
def version : String := "1.0.0"

/-- A node with one scalar. -/
def scalarNode (name : String) (type : ScalarType) (value : String) : Node :=
  ⟨name, .scalar type value⟩

/-- The record of an item. -/
def itemRecord (id name : String) : Record :=
  [scalarNode "id" .int32 id, scalarNode "name" .string name]

/-- A plain scalar field of a descriptor. -/
def scalarField (name : String) (type : ScalarType) : FieldDescriptor :=
  .plain name (.scalar type)

/-- One table with two records, indexed by its first column. -/
def itemModel : Model where
  descriptors := [
    { name := "Item", kind := .struct, fields := [scalarField "id" .int32, scalarField "name" .string],
      indexes := ["id"] },
    { name := "Config", kind := .struct, usage := .combineStruct, fields := [.linked "Item" "Item"] }]
  tables := [{ name := "Item", records := [itemRecord "1" "Sword", itemRecord "2" "Shield"] }]

/-- The record of an actor. -/
def actorRecord (id name kind alive : String) (elements scores : List String) (x y : String)
    (skills : List (String × String)) : Record := [
  scalarNode "id" .int32 id,
  scalarNode "name" .string name,
  scalarNode "kind" .enumeration kind,
  scalarNode "alive" .bool alive,
  ⟨"elements", .array .enumeration elements⟩,
  ⟨"scores", .array .float scores⟩,
  ⟨"pos", .struct [⟨"x", .int32, x⟩, ⟨"y", .int32, y⟩]⟩,
  ⟨"skills", .structArray (skills.map fun s => [⟨"id", .int32, s.1⟩, ⟨"desc", .string, s.2⟩])⟩]

/-- Tables and descriptors of every kind. -/
def sampleModel : Model where
  descriptors := [
    { name := "ActorType", kind := .enumeration,
      fields := [.member "None" 0, .member "Pharah" 1, .member "Junkrat" 2] },
    { name := "Element", kind := .enumeration, fields := [.member "Fire" 10, .member "Ice" 20] },
    { name := "Actor", kind := .struct, fields := [scalarField "id" .int32] },
    { name := "Item", kind := .struct, fields := [scalarField "id" .int32, scalarField "name" .string],
      indexes := ["id", "name"] },
    { name := "ServerOnly", kind := .struct, fields := [scalarField "id" .int32], indexes := ["id"],
      tags := [".server"] },
    { name := "Config", kind := .struct, usage := .combineStruct,
      fields := [.linked "Actor" "Actor", .linked "Item" "Item", .linked "Empty" "Actor",
        .linked "ServerOnly" "ServerOnly"] }]
  tables := [
    { name := "Actor",
      records := [
        actorRecord "100" "Fareeha \"Pharah\" Amari" "Pharah" "true" ["Fire", "Ice"] ["1.5", "2", "-0.25"] "3" "4"
          [("7", "line1\nline2"), ("8", "C:\\path")],
        actorRecord "101" "Junkrat" "Junkrat" "false" [] [] "0" "0" []] },
    { name := "Item",
      records := [itemRecord "1" "Sword", itemRecord "2" "Shield", itemRecord "2" "Buckler"] },
    { name := "Empty" },
    { name := "ServerOnly", tags := [".server"], records := [[scalarNode "id" .int32 "1"]] }]

end TableExport.Samples
