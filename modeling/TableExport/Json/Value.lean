import TableExport.Json.Number

/-!
# Values of a JSON document

A value keeps the members of an object in their order, repeated ones included, and a number as it is written.

- `readValue` reads a value with at most so many nested containers.
- `skipValue` passes a value that nobody wants to know: nesting is not limited, and numbers may have any size.
- `readList` and `foldMembers` are the two shapes of containers, for elements and members of any kind.

A loop over elements or members is bounded by a text: each of them takes up at least one character, so that a text as
long as the container is long enough.
-/

namespace TableExport.Json

/-- A value. -/
inductive Value where
  | null
  | boolean (value : Bool)
  | number (value : Numeral)
  | string (value : String)
  | array (items : List Value)
  | object (members : List (String × Value))

/-- Whether another element comes next in a list, and the text from there on. -/
def nextElement (first : Bool) (s : List Char) : Except Failure (Bool × List Char) :=
  match skipBlanks s with
  | [] => .error (.next .endOfList [])
  | c :: r =>
    if c = ']' then .ok (false, c :: r)
    else if first then .ok (true, c :: r)
    else if c = ',' then
      match skipBlanks r with
      | [] => .error (.next .endOfValue [])
      | d :: r => if d = ']' then .error (.next .trailingComma (d :: r)) else .ok (true, d :: r)
    else .error (.next .expectedListCommaOrEnd (c :: r))

/-- The elements of a list behind its opening bracket, and the text from its closing bracket on; no more of them than a
bound has characters. -/
def readElements {α : Type} (element : Reader α) : List Char → Bool → Reader (List α)
  | [], _, s => .error (.here .endOfList s)
  | _ :: bound, first, s => do
    let (more, r) ← nextElement first s
    if more then
      let (a, r) ← element r
      let (as, r) ← readElements element bound false r
      return (a :: as, r)
    else return ([], r)

/-- The elements of a list behind its opening bracket, and the text behind its closing bracket. -/
def readList {α : Type} (element : Reader α) : Reader (List α) := fun s => do
  let (as, r) ← readElements element ('[' :: s) true s
  return (as, r.drop 1)

/-- Whether another member comes next in an object, and the text behind the opening quote of its key. -/
def nextMember (first : Bool) (s : List Char) : Except Failure (Bool × List Char) :=
  match skipBlanks s with
  | [] => .error (.next .endOfObject [])
  | c :: r =>
    if c = '}' then .ok (false, c :: r)
    else if first then
      if c = '"' then .ok (true, r) else .error (.next .keyNotString (c :: r))
    else if c = ',' then
      match skipBlanks r with
      | [] => .error (.next .endOfValue [])
      | d :: r =>
        if d = '"' then .ok (true, r)
        else if d = '}' then .error (.next .trailingComma (d :: r))
        else .error (.next .keyNotString (d :: r))
    else .error (.next .expectedObjectCommaOrEnd (c :: r))

/-- Passes the colon behind a key. -/
def readColon (s : List Char) : Except Failure (List Char) :=
  match skipBlanks s with
  | [] => .error (.next .endOfObject [])
  | c :: r => if c = ':' then .ok r else .error (.next .expectedColon (c :: r))

/-- Takes in the members of an object one by one, from behind its opening bracket to its closing bracket, no more of
them than a bound has characters. The step gets the key and starts behind it. -/
def foldMembers {σ : Type} (step : σ → String → Reader σ) : List Char → Bool → σ → Reader σ
  | [], _, _, s => .error (.here .endOfObject s)
  | _ :: bound, first, state, s => do
    let (more, r) ← nextMember first s
    if more then
      let (key, r) ← readText r
      let (state, r) ← step state (String.ofList key) r
      foldMembers step bound false state r
    else return (state, r)

/-- Reads a value in which at most so many containers are nested. -/
def readValue : Nat → Reader Value := fun depth s =>
  match skipBlanks s with
  | [] => .error (.next .endOfValue [])
  | c :: r =>
    if c = 'n' then do
      return (.null, ← readWord ['u', 'l', 'l'] r)
    else if c = 't' then do
      return (.boolean true, ← readWord ['r', 'u', 'e'] r)
    else if c = 'f' then do
      return (.boolean false, ← readWord ['a', 'l', 's', 'e'] r)
    else if c = '-' || c.isDigit then do
      let (t, r) ← readNumeral (c :: r)
      return (.number t, r)
    else if c = '"' then do
      let (t, r) ← readText r
      return (.string (String.ofList t), r)
    else if c = '[' then
      match depth with
      | 0 => .error (.next .tooDeep (c :: r))
      | depth + 1 => do
        let (items, r) ← readList (readValue depth) r
        return (.array items, r)
    else if c = '{' then
      match depth with
      | 0 => .error (.next .tooDeep (c :: r))
      | depth + 1 => do
        let (members, r) ← foldMembers (fun members key r => do
          let (v, r) ← readValue depth (← readColon r)
          return (members ++ [(key, v)], r)) (c :: r) true [] r
        return (.object members, r.drop 1)
    else .error (.next .expectedValue (c :: r))

/-- Passes the elements of a list that nobody wants to know, from behind its opening bracket or an element to behind
its closing bracket; no more of them than a bound has characters. -/
def skipElements (skip : List Char → Except Failure (List Char)) :
    List Char → Bool → List Char → Except Failure (List Char)
  | [], _, s => .error (.here .endOfList s)
  | _ :: bound, first, s =>
    match skipBlanks s with
    | [] => .error (.next .endOfList [])
    | c :: r =>
      if c = ']' then .ok r
      else if first then do skipElements skip bound false (← skip (c :: r))
      else if c = ',' then do skipElements skip bound false (← skip r)
      else .error (.next .expectedListCommaOrEnd (c :: r))

/-- Passes a key and its colon. -/
def skipKey (s : List Char) : Except Failure (List Char) :=
  match skipBlanks s with
  | [] => .error (.next .endOfObject [])
  | c :: r => if c = '"' then do readColon (← skipText r) else .error (.next .keyNotString (c :: r))

/-- Passes the members of an object that nobody wants to know, from behind its opening bracket or a member to behind
its closing bracket; no more of them than a bound has characters. -/
def skipMembers (skip : List Char → Except Failure (List Char)) :
    List Char → Bool → List Char → Except Failure (List Char)
  | [], _, s => .error (.here .endOfObject s)
  | _ :: bound, first, s =>
    match skipBlanks s with
    | [] => .error (.next .endOfObject [])
    | c :: r =>
      if c = '}' then .ok r
      else if first then do skipMembers skip bound false (← skip (← skipKey (c :: r)))
      else if c = ',' then do skipMembers skip bound false (← skip (← skipKey r))
      else .error (.next .expectedObjectCommaOrEnd (c :: r))

/-- Passes a value; with the containers nested in it there are no more levels than a bound has characters. -/
def skipNested : List Char → List Char → Except Failure (List Char)
  | [], s => .error (.next .endOfValue s)
  | _ :: bound, s =>
    match skipBlanks s with
    | [] => .error (.next .endOfValue [])
    | c :: r =>
      if c = 'n' then readWord ['u', 'l', 'l'] r
      else if c = 't' then readWord ['r', 'u', 'e'] r
      else if c = 'f' then readWord ['a', 'l', 's', 'e'] r
      else if c = '-' || c.isDigit then do return (← scanNumber .invalidNumber (c :: r)).2
      else if c = '"' then skipText r
      else if c = '[' then skipElements (skipNested bound) (c :: r) true r
      else if c = '{' then skipMembers (skipNested bound) (c :: r) true r
      else .error (.next .expectedValue (c :: r))

/-- Passes a value. -/
def skipValue (s : List Char) : Except Failure (List Char) :=
  skipNested s s

end TableExport.Json
