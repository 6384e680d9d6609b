/-!
# Output tags

Tables and descriptors carry tags that restrict the outputs they are part of.

- `OutputTags.admits` decides whether an output with a given tag includes them: no tags at all admit every output.
-/

namespace TableExport

/-- The output tags of a table or a descriptor, in declaration order. -/
abbrev OutputTags := List String

/-- An output with this tag includes what carries the tags. -/
def OutputTags.admits (tags : OutputTags) (tag : String) : Bool :=
  tags.isEmpty || tags.contains tag

end TableExport
