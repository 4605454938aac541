import Octet.Formula.Store
import Octet.Text.Quoted

/-!
# The written form of values

Every value can be written. A list or dictionary that holds itself is written with dots in its own
place, so the written form is finite. Part of the reference model of `evaluate`.
-/

namespace Octet.Formula

/-- Texts separated by commas. -/
def commas (ts : List Text) : Text := (utf8 ", ").intercalate ts

/-- The written form of a range. -/
def Range.text (r : Range) : Text :=
  let bounds :=
    if r.step ≠ 1 then [r.start, r.stop, r.step]
    else if r.start ≠ 0 then [r.start, r.stop] else [r.stop]
  utf8 "range(" ++ commas (bounds.map Text.decimal) ++ utf8 ")"

/-- The name of a method of a value. -/
def methodName (receiver : Value) (m : Method) : Text := nameIn receiver.methods m

/-- A string of bytes between quotes. -/
def quotedBytes (t : Text) : Text := 'b'.toUInt8 :: Text.quote t

/-- The written form of a value that holds no others. -/
def Value.plainText : Value → Text
  | .none => utf8 "None"
  | .bool b => if b then utf8 "True" else utf8 "False"
  | .int n => Text.decimal n
  | .float f => Real.text f
  | .string b => Text.quote (unpacked b)
  | .bytes b => quotedBytes (unpacked b)
  | .range r => r.text
  | .elems t asNumbers => Text.quote t ++ if asNumbers then utf8 ".elem_ords()" else utf8 ".elems()"
  | .codepoints t asNumbers =>
    Text.quote t ++ if asNumbers then utf8 ".codepoint_ords()" else utf8 ".codepoints()"
  | .byteElems t => quotedBytes t ++ utf8 ".elems()"
  | .function _ _ name .. => utf8 "<function " ++ name ++ utf8 ">"
  | .builtin b => utf8 "<built-in function " ++ b.name ++ utf8 ">"
  | .method _ receiver m =>
    utf8 "<built-in method " ++ methodName receiver m ++ utf8 " of " ++ receiver.typeName ++
      utf8 " value>"
  | _ => []

mutual

/-- The written form of a value inside the lists and dictionaries of `path`, which is followed
through at most `depth` further lists and dictionaries. -/
def Store.write (s : Store) (depth : Nat) (path : List (Bool × Nat)) (v : Value) : Text :=
  match v with
  | .tuple items =>
    let inner := commas (s.writeAll depth path items)
    utf8 "(" ++ inner ++ (if items.length = 1 then utf8 ",)" else utf8 ")")
  | .list i =>
    if path.contains (true, i) then utf8 "[...]"
    else
      match depth with
      | 0 => utf8 "[...]"
      | depth + 1 =>
        utf8 "[" ++ commas (s.writeAll depth ((true, i) :: path) (s.items i).toList) ++ utf8 "]"
  | .dict i =>
    if path.contains (false, i) then utf8 "\x7b...\x7d"
    else
      match depth with
      | 0 => utf8 "\x7b...\x7d"
      | depth + 1 =>
        let entries := (s.dict i).toList
        let ks := s.writeAll depth path (entries.map (·.1))
        let vs := s.writeAll depth ((false, i) :: path) (entries.map (·.2))
        utf8 "\x7b" ++ commas (List.zipWith (fun k v => k ++ utf8 ": " ++ v) ks vs) ++ utf8 "\x7d"
  | v => v.plainText
termination_by (depth, sizeOf v)

/-- The written forms of some values. -/
def Store.writeAll (s : Store) (depth : Nat) (path : List (Bool × Nat)) (vs : List Value) :
    List Text :=
  match vs with
  | [] => []
  | v :: vs => s.write depth path v :: s.writeAll depth path vs
termination_by (depth, sizeOf vs)

end

/-- The written form of a value. No path through lists and dictionaries is longer than there are of
them. -/
def Store.repr (s : Store) (v : Value) : Text := s.write (s.lists.size + s.dicts.size) [] v

/-- A string as it is, any other value in its written form. -/
def Store.text (s : Store) : Value → Text
  | .string b => unpacked b
  | v => s.repr v

end Octet.Formula
