/- Passing over a value that nobody asked for. Its numbers may be out of range, its strings may break
pairs of surrogates, and its containers may stand in each other as deep as they like. -/
import SwiftModel.Json.Document

namespace SwiftModel.Json

def ArrayStop.passingFault? : ArrayStop → Option Fault
  | .dangling closer => some ⟨.expectedValue, .at closer.here⟩
  | stop => stop.fault?

def passingKeyFault (found : Lexeme) : Fault :=
  match found.token, found.here with
  | .broken _ passing, '"' :: _ => passing
  | _, here => ⟨.keyNotString, .at here⟩

def ObjectStop.passingFault? : ObjectStop → Option Fault
  | .textEnd _ => some ⟨.endInObject, .end⟩
  | .dangling closer => some ⟨.keyNotString, .at closer.here⟩
  | .noKey found => some (passingKeyFault found)
  | .noColon _ found => some (colonFault found)
  | stop => stop.fault?

def Lexeme.passingFault? (lexeme : Lexeme) : Option Fault :=
  match lexeme.token with
  | .null | .boolean _ | .number _ | .string _ => none
  | .broken _ passing => some passing
  | _ => some ⟨.expectedValue, .at lexeme.here⟩

mutual

def Tree.passingFault? : Tree → Option Fault
  | .missing => some ⟨.endInValue, .end⟩
  | .leaf lexeme => lexeme.passingFault?
  | .array _ items stop => itemsPassingFault? items <|> stop.passingFault?
  | .object _ members stop => membersPassingFault? members <|> stop.passingFault?
termination_by structural tree => tree

def itemsPassingFault? : List Tree → Option Fault
  | [] => none
  | item :: items => item.passingFault? <|> itemsPassingFault? items
termination_by structural items => items

def membersPassingFault? : List (Key × Tree) → Option Fault
  | [] => none
  | (_, tree) :: members => tree.passingFault? <|> membersPassingFault? members
termination_by structural members => members

end

end SwiftModel.Json
