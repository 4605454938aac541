import Octet.Formula.Builtin

/-!
# Methods

The methods of strings, strings of bytes, lists and dictionaries. Except for `format` and `update`
they take no arguments with names. The places and lengths of strings are counted in bytes, their
case and their classes by code points. Part of the reference model of `evaluate`.

* `stringMethod`, `listMethod`, `dictMethod` — the methods by kind of receiver;
* `Method.apply` — the value of a call of a method.
-/

namespace Octet.Formula

/-! ## Strings -/

/-- The texts as a new list of strings. -/
def stringList (ts : List Text) : Run Value := Run.newList (ts.map Value.ofText).toArray

/-- The part of a text between the bounds that some arguments give, with the place where it
starts. -/
def partOf? (t : Text) (bounds : List Value) : Option (Nat × Text) := do
  let (lo, hi) ← bounds? t.length (bounds[0]?.getD .none) (bounds[1]?.getD .none)
  some (lo.toNat, (t.drop lo.toNat).take (hi - lo).toNat)

/-- The first place where a string occurs in a part of a text, or the last if `search` looks for
that. -/
def placeIn? (search : Text → Text → Option Nat) (t : Text) (g : Given) : Option (Option Nat) := do
  match ← g.between? 1 3 with
  | part :: bounds =>
    let part ← part.text?
    let (start, t) ← partOf? t bounds
    some ((search part t).map (start + ·))
  | [] => none

/-- Whether a test holds of a text and a string, or of it and one of a tuple of strings. -/
def someText? (test : Text → Bool) : Value → Option Bool
  | .string b => some (test (unpacked b))
  | .tuple parts => anyText? parts
  | _ => none
where
  /-- Whether the test holds of one of some strings; those after it may be anything. -/
  anyText? : List Value → Option Bool
    | [] => some false
    | v :: rest => do if test (← v.text?) then some true else anyText? rest

/-- Whether a part of a text has a string, or one of some, at one of its ends. -/
def endTest? (test : Text → Text → Bool) (t : Text) (g : Given) : Option Bool := do
  match ← g.between? 1 3 with
  | v :: bounds =>
    let (_, t) ← partOf? t bounds
    someText? (test t) v
  | [] => none

/-- Whether a text has code points and all satisfy a condition. -/
def allPoints (p : Nat → Bool) (t : Text) : Bool := !t.isEmpty && (Text.codes t).all p

/-- Whether a text has a letter with case and is the same in one case. -/
def isInCase (toCase : Text → Text) (t : Text) : Bool :=
  (Text.codes t).any Text.isCasedPoint && toCase t == t

/-- The first character as in titles, all others in lower case. -/
def capitalized (t : Text) : Text :=
  match Text.codes t with
  | [] => []
  | c :: cs => Text.ofCodes (Text.titlePoint c :: cs.map Text.lowerPoint)

/-- Characters as in titles, where `inWord` tells whether the one before has case. -/
def titled (inWord : Bool) : List Nat → List Nat
  | [] => []
  | c :: cs =>
    let c := if inWord then Text.lowerPoint c else Text.titlePoint c
    c :: titled (Text.isCasedPoint c) cs

/-- Whether characters are as in titles: capitals start words and other letters go on with them.
`inWord` tells whether the one before has case, `found` whether any before has. -/
def isTitled (inWord found : Bool) : List Nat → Bool
  | [] => found
  | c :: cs =>
    if Text.isAsciiCapital c || Text.isTitlePoint c then !inWord && isTitled true true cs
    else if Text.isLowerPoint c then inWord && isTitled true true cs
    else !Text.isUpperPoint c && isTitled false found cs

/-- The lines of a text, with or without their ends. -/
def linesOf (keepEnds : Bool) (t : Text) : List Text :=
  let pieces := Text.splitAt Text.lf t
  let last := pieces.getLast?.getD []
  let whole := pieces.dropLast.map fun line => if keepEnds then line ++ [Text.lf] else line
  if last.isEmpty then whole else whole ++ [last]

/-- A number of pieces or replacements: all if it is negative. -/
def most? (all : Nat) (n : Option Value) : Option Nat :=
  match n with
  | none => some all
  | some v => do
    let n ← v.word?
    some (if n < 0 then all else n.toNat)

/-- The pieces of a text between separators or white space. A number of pieces counts from the end
if `fromEnd`. -/
def piecesOf? (fromEnd : Bool) (t : Text) (g : Given) : Option (List Text) := do
  let args ← g.between? 0 2
  let most ← most? t.length args[1]?
  match args[0]?.getD .none with
  | .none => some (if fromEnd then Text.lastWords most t else Text.words most t)
  | v =>
    match ← v.text? with
    | [] => none
    | sep => some (if fromEnd then Text.cutLast sep most t else Text.cut sep most t)

/-- The parts of a text before, at and after an occurrence of a separator. -/
def threeParts (t sep : Text) (place : Nat) : Value :=
  .tuple [.ofText (t.take place), .ofText sep, .ofText (t.drop (place + sep.length))]

/-- The separator that is the only argument. -/
def Given.separator? (g : Given) : Option Text := do
  match ← (← g.only?).text? with
  | [] => none
  | sep => some sep

/-- Which characters are taken off the ends of a string: those of an argument, or white space. -/
def Given.trimmed? (g : Given) : Option (Text.Point → Bool) := do
  match ← g.between? 0 1 with
  | [v] =>
    let chars ← v.text?
    some (if chars.isEmpty then Text.Point.isSpace else Text.Point.isAmong chars)
  | _ => some Text.Point.isSpace

/-- The strings of a series, with a text between them. -/
def joinedBy (between : Text) (series : Series) : Run Text := do
  let parts ← series.foldM (fun (acc : Array Text) v => do return acc.push (← v.text?)) #[]
  return between.intercalate parts.toList

/-- A value that has no arguments. -/
def Given.plain (g : Given) (v : Value) : Run Value := do
  let _ ← g.between? 0 0
  return v

/-- The value of a method of a string. -/
def stringMethod (m : Method) (t : Text) (g : Given) : Run Value :=
  match m with
  | .capitalize => g.plain (.ofText (capitalized t))
  | .codepointOrds => g.plain (.codepoints t true)
  | .codepoints => g.plain (.codepoints t false)
  | .count => do
    match ← g.between? 1 3 with
    | part :: bounds =>
      let part ← part.text?
      let (_, t) ← partOf? t bounds
      return .int (Text.occurrences part t)
    | [] => failure
  | .elemOrds => g.plain (.elems t true)
  | .elems => g.plain (.elems t false)
  | .endswith => do return .bool (← endTest? Text.endsWith t g)
  | .find => do return .int (((← placeIn? Text.indexOf? t g).map Int.ofNat).getD (-1))
  | .format => do return .ofText (← (← get).format? t g)
  | .index => do return .int ((← (← placeIn? Text.indexOf? t g) : Nat) : Int)
  | .isalnum => g.plain (.bool (allPoints (fun c => Text.isLetter c || Text.isDigitPoint c) t))
  | .isalpha => g.plain (.bool (allPoints Text.isLetter t))
  | .isdigit => g.plain (.bool (allPoints Text.isDigitPoint t))
  | .islower => g.plain (.bool (isInCase Text.toLower t))
  | .isspace => g.plain (.bool (allPoints Text.isSpace t))
  | .istitle => g.plain (.bool (isTitled false false (Text.codes t)))
  | .isupper => g.plain (.bool (isInCase Text.toUpper t))
  | .join => do return .ofText (← joinedBy t (← Run.series (← g.only?)))
  | .lower => g.plain (.ofText (Text.toLower t))
  | .lstrip => do return .ofText (Text.stripStart (← g.trimmed?) t)
  | .partition => do
    let sep ← g.separator?
    match Text.indexOf? sep t with
    | some i => return threeParts t sep i
    | none => return .tuple [.ofText t, .ofText [], .ofText []]
  | .removeStart => do
    let part ← (← g.only?).text?
    return .ofText (if part.isPrefixOf t then t.drop part.length else t)
  | .removeEnd => do
    let part ← (← g.only?).text?
    return .ofText (if Text.endsWith t part then t.take (t.length - part.length) else t)
  | .replace => do
    match ← g.between? 2 3 with
    | old :: new :: count =>
      let most ← most? (t.length + 1) count.head?
      return .ofText (Text.replace (← old.text?) (← new.text?) most t)
    | _ => failure
  | .rfind => do return .int (((← placeIn? Text.lastIndexOf? t g).map Int.ofNat).getD (-1))
  | .rindex => do return .int ((← (← placeIn? Text.lastIndexOf? t g) : Nat) : Int)
  | .rpartition => do
    let sep ← g.separator?
    match Text.lastIndexOf? sep t with
    | some i => return threeParts t sep i
    | none => return .tuple [.ofText [], .ofText [], .ofText t]
  | .rsplit => do stringList (← piecesOf? true t g)
  | .rstrip => do return .ofText (Text.stripEnd (← g.trimmed?) t)
  | .split => do stringList (← piecesOf? false t g)
  | .splitlines => do
    let args ← g.between? 0 1
    let keepEnds ← if let [v] := args then v.flag? else some false
    stringList (linesOf keepEnds t)
  | .startswith => do return .bool (← endTest? (fun t part => part.isPrefixOf t) t g)
  | .strip => do
    let p ← g.trimmed?
    return .ofText (Text.stripEnd p (Text.stripStart p t))
  | .title => g.plain (.ofText (Text.ofCodes (titled false (Text.codes t))))
  | .upper => g.plain (.ofText (Text.toUpper t))
  | _ => failure

/-! ## Lists -/

/-- The place of a value among items, counted from `place`. -/
def Store.placeAmong? (s : Store) (v : Value) (place : Nat) : List Value → Option Nat
  | [] => none
  | w :: rest => do if ← s.equal? w v then some place else s.placeAmong? v (place + 1) rest

/-- The item of a list at an index, which counts from the end if negative, and its place. -/
def Store.itemAt? (s : Store) (number : Nat) (i : Int) : Option (Nat × Value) :=
  let items := s.items number
  let i := if i < 0 then i + (items.size : Int) else i
  if i < 0 then none else items[i.toNat]?.map (i.toNat, ·)

/-- The value of a method of a list. -/
def listMethod (m : Method) (number : Nat) (g : Given) : Run Value := do
  match m with
  | .append =>
    let v ← g.only?
    Run.changeList number (·.push v)
    return .none
  | .clear =>
    let _ ← g.between? 0 0
    Run.changeList number fun _ => #[]
    return .none
  | .extend =>
    let series ← Run.series (← g.only?)
    Run.checkList number
    Run.changeList number (· ++ series.toList.toArray)
    return .none
  | .index =>
    match ← g.between? 1 3 with
    | v :: bounds =>
      let items := (← Run.items number).toList
      let (lo, hi) ← bounds? items.length (bounds[0]?.getD .none) (bounds[1]?.getD .none)
      let place ← (← get).placeAmong? v lo.toNat ((items.drop lo.toNat).take (hi - lo).toNat)
      return .int place
    | [] => failure
  | .insert =>
    match ← g.between? 2 2 with
    | [i, v] =>
      let i ← i.word?
      let length : Int := (← Run.items number).size
      let place := clamp 0 length (if i < 0 then i + length else i)
      Run.changeList number fun items => items.insertIdxIfInBounds place.toNat v
      return .none
    | _ => failure
  | .pop =>
    let args ← g.between? 0 1
    let i ← if let [v] := args then v.word? else some (-1)
    let (place, v) ← (← get).itemAt? number i
    Run.changeList number fun items => items.eraseIdxIfInBounds place
    return v
  | .remove =>
    let v ← g.only?
    let place ← (← get).placeAmong? v 0 (← Run.items number).toList
    Run.changeList number fun items => items.eraseIdxIfInBounds place
    return .none
  | _ => failure

/-! ## Dictionaries -/

/-- Takes a key out of a dictionary and gives its value, if it has one. From one that never had an
entry any value can be taken out. -/
def takeOut (number : Nat) (k : Value) : Run (Option Value) := do
  Run.checkDict number
  let d ← Run.dict number
  if !d.used then return none
  let v ← d.find? k
  Run.changeDict number fun d => d.erase? k
  return v

/-- The value of a method of a dictionary. -/
def dictMethod (m : Method) (number : Nat) (g : Given) : Run Value := do
  match m with
  | .clear =>
    let _ ← g.between? 0 0
    Run.changeDict number fun d => some d.cleared
    return .none
  | .get =>
    match ← g.between? 1 2 with
    | k :: missing =>
      return ((← (← Run.dict number).find? k).orElse fun _ => missing.head?).getD .none
    | [] => failure
  | .items =>
    let _ ← g.between? 0 0
    Run.newList ((← Run.dict number).toList.map fun e => .tuple [e.1, e.2]).toArray
  | .keys =>
    let _ ← g.between? 0 0
    Run.newList ((← Run.dict number).toList.map (·.1)).toArray
  | .pop =>
    match ← g.between? 1 2 with
    | k :: missing =>
      match ← takeOut number k with
      | some v => return v
      | none => missing.head?
    | [] => failure
  | .popitem =>
    let _ ← g.between? 0 0
    let (k, v) ← (← Run.dict number).first?
    let _ ← takeOut number k
    return .tuple [k, v]
  | .setdefault =>
    match ← g.between? 1 2 with
    | k :: missing =>
      match ← (← Run.dict number).find? k with
      | some v => return v
      | none =>
        let v := missing.head?.getD .none
        Run.changeDict number fun d => d.insert? k v
        return v
    | [] => failure
  | .update =>
    match ← g.entries (some number) with
    | [] => return .none
    | entries =>
      Run.changeDict number fun d => d.insertAll? entries
      return .none
  | .values =>
    let _ ← g.between? 0 0
    Run.newList ((← Run.dict number).toList.map (·.2)).toArray
  | _ => failure

/-- The value of a call of a method. -/
def Method.apply (m : Method) (receiver : Value) (g : Given) : Run Value :=
  match receiver with
  | .string b => stringMethod m (unpacked b) g
  | .bytes b => g.plain (.byteElems (unpacked b))
  | .list number => listMethod m number g
  | .dict number => dictMethod m number g
  | _ => failure

end Octet.Formula
