import ApiTypings.Declaration.Members
import ApiTypings.Layout

/-!
This module contains the signatures of request functions and their order within a group.

A function without parameters has a loose signature, which names a shared type. Any other function
has a typed signature, which is laid out from a template. The signatures of a group stand in order
of length, counted in characters, and signatures of one length keep the order of the group.
-/

namespace ApiTypings

namespace Declaration

def level : Nat := 3

def looseSignature (name : Text) : Text :=
  '\'' :: (name ++ "': ReqFnWithAnyParams".toList)

def signatureTemplate (name members : Text) : Text :=
  '\'' :: (name ++ "': ReqFn & ".toList ++ ['{']) ++
    Layout.line 5 "<T = Result>(".toList ++
    Layout.line 6 ("params: ".toList ++ Text.braced members ++ ",".toList) ++
    Layout.line 6 "options?: RuntimeOptions".toList ++
    Layout.line 5 "): Promise<T>".toList ++
    Layout.line 4 ['}']

def signature (name members : Text) : Except Layout.Fault Text :=
  if members = [] then
    .ok (looseSignature name)
  else
    Layout.normalize level (signatureTemplate name members)

def functionSignature (function : Function) : Except Layout.Fault Text :=
  signature function.name (memberList function.params)

def arrange (texts : List Text) : List Text :=
  texts.mergeSort fun s t => s.length ≤ t.length

def signatures : List Function → Except Layout.Fault (List Text)
  | [] => .ok []
  | function :: rest =>
    match functionSignature function with
    | .error fault => .error fault
    | .ok text =>
      match signatures rest with
      | .error fault => .error fault
      | .ok texts => .ok (text :: texts)

def table (group : Group) : Except Layout.Fault Text :=
  match signatures group.functions with
  | .error fault => .error fault
  | .ok texts => .ok (("\n\t".toList).intercalate (arrange texts))

end Declaration

end ApiTypings
