import ApiTypings.Declaration.Signature
import ApiTypings.Api.Shape

/-!
This module contains the declaration module of an api map: the preamble with the shared types, and
after it one exported block for each group.
-/

namespace ApiTypings

namespace Declaration

def preambleLevel : Nat := 2

def preambleTemplate : Text :=
  Layout.line 2 "// default response result".toList ++
    Layout.line 2 ("interface Result ".toList ++
      Text.braced "code: number, data: any, msg?: string".toList) ++
    Layout.line 2 ("interface ReqFn ".toList ++ ['{']) ++
    Layout.line 3 "key: string".toList ++
    Layout.line 3 "mock: any".toList ++
    Layout.line 3 "params: object | string[]".toList ++
    Layout.line 2 ['}'] ++
    Layout.line 2 ("interface RuntimeOptions ".toList ++ ['{']) ++
    Layout.line 3 "// for jsonp".toList ++
    Layout.line 3 "callbackName?: string".toList ++
    Layout.line 3 "[key: string]: any".toList ++
    Layout.line 2 ['}'] ++
    Layout.line 2 ("interface ReqFnWithAnyParams extends ReqFn ".toList ++ ['{']) ++
    Layout.line 3 "<T = Result>(params?: any, options?: RuntimeOptions): Promise<T>".toList ++
    Layout.line 2 ['}']

def preamble : Except Layout.Fault Text := Layout.normalize preambleLevel preambleTemplate

def blockTemplate (name table : Text) : Text :=
  Layout.line 3 ("export const ".toList ++ name ++ ": ".toList ++ ['{']) ++
    Layout.line 4 table ++
    Layout.line 3 ['}']

def block (group : Group) : Except Layout.Fault Text :=
  match table group with
  | .error fault => .error fault
  | .ok text => Layout.normalize level (blockTemplate group.name text)

def blocks : List Group → Except Layout.Fault (List Text)
  | [] => .ok []
  | group :: rest =>
    match block group with
    | .error fault => .error fault
    | .ok text =>
      match blocks rest with
      | .error fault => .error fault
      | .ok texts => .ok (text :: texts)

def ofApiMap (apis : ApiMap) : Except Layout.Fault Text :=
  match preamble with
  | .error fault => .error fault
  | .ok head =>
    match blocks apis.groups with
    | .error fault => .error fault
    | .ok texts => .ok (head ++ "\n\n".toList ++ ("\n\n".toList).intercalate texts)

end Declaration

end ApiTypings
