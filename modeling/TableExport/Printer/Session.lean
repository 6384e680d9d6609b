import TableExport.Printer.Registry

/-!
# Working with a registry

A registry is filled and asked by one request after the other. Every request is answered, and leaves a registry.

- `RegistryRequest` lists the requests, `RegistryAnswer` their answers.
- `Registry.answer` answers one request, `Registry.session` a list of them.
-/

namespace TableExport

/-- What can be asked of a registry. -/
inductive RegistryRequest where
  /-- Adds a printer, and keeps the registry if it is refused. -/
  | register (p : Printer)
  /-- Gives the registry away for one with the printer; nothing is left of it if the printer is refused. -/
  | extend (p : Printer)
  /-- Asks for the printer of a target. -/
  | get (target : String)
  /-- Asks for the targets. -/
  | targets
  /-- Prints with every printer. -/
  | print (x : Export)

/-- What a registry answers. -/
inductive RegistryAnswer where
  | registered
  | refused (reason : RegistryError)
  | found (p : Printer)
  | listed (targets : List String)
  | printed (outputs : List (Except PrintError Output))

namespace Registry

/-- The answer to a request, and the registry that it leaves. -/
def answer (r : Registry) : RegistryRequest → RegistryAnswer × Registry
  | .register p =>
    match r.register p with
    | .ok r => (.registered, r)
    | .error e => (.refused e, r)
  | .extend p =>
    match r.register p with
    | .ok r => (.registered, r)
    | .error e => (.refused e, {})
  | .get target =>
    match r.get target with
    | .ok p => (.found p, r)
    | .error e => (.refused e, r)
  | .targets => (.listed r.targets, r)
  | .print x => (.printed (r.printers.map (·.print x)), r)

/-- The answers to requests in order, and the registry that they leave. -/
def session (r : Registry) : List RegistryRequest → List RegistryAnswer × Registry
  | [] => ([], r)
  | q :: qs => ((r.answer q).1 :: ((r.answer q).2.session qs).1, ((r.answer q).2.session qs).2)

end Registry

end TableExport
