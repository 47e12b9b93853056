/- The settings of a run, and the members that a configuration has for them. -/
import SwiftModel.Config.Reader
import SwiftModel.Emission.Options

namespace SwiftModel.Config
open SwiftModel.Emission SwiftModel.Identifier

structure Settings where
  emission : Options
  /-- Texts in a sample that look like UUIDs are typed as UUIDs. -/
  detectUuid : Bool
  /-- Integers of a schema that are never negative are typed as unsigned. -/
  preferUnsigned : Bool
deriving DecidableEq

def Settings.default : Settings := ⟨.default, true, true⟩

def readIndent : Reader Indent :=
  readChoice
    [("spaces", .carrying fun tree => (readWidth tree).map Indent.spaces), ("tab", .bare .tab)]

def readAccess : Reader Access :=
  readChoice
    [("public", .bare .everywhere), ("internal", .bare .withinModule),
     ("fileprivate", .bare .withinFile)]

def readPropertyNaming : Reader PropertyNaming :=
  readChoice [("original", .bare .verbatim), ("camel-from-snake", .bare .camelFromSnake)]

def readTypeNaming : Reader TypeNaming :=
  readChoice [("uppercase", .bare .uppercase), ("camel-from-snake", .bare .camelFromSnake)]

def escaperMembers : List (Member Escaper) :=
  [.setting "reserved" (readList readString) fun e words => { e with reserved := Text.ordered words },
   .setting "prefix" readString fun e mark => { e with opening := mark },
   .setting "suffix" readString fun e mark => { e with closing := mark }]

def emissionMembers : List (Member Options) :=
  [.setting "root_name" readString fun o name => { o with rootName := name },
   .setting "sorted_fields" readBoolean fun o b => { o with sortedFields := b },
   .setting "mutable" readBoolean fun o b => { o with mutable := b },
   .setting "indent_unit" readIndent fun o indent => { o with indent := indent },
   .setting "access_level" readAccess fun o access => { o with access := access },
   .setting "always_emit_key_mapping" readBoolean fun o b => { o with alwaysKeyTable := b },
   .setting "conforming_interfaces" (readList readString) fun o names =>
     { o with interfaces := names },
   .setting "variable_name_strategy" readPropertyNaming fun o naming =>
     { o with propertyNaming := naming },
   .setting "object_name_strategy" readTypeNaming fun o naming => { o with typeNaming := naming },
   .setting "drop_plural_suffix" readBoolean fun o b => { o with singularElements := b },
   .nested "escaper" (readSection "IdentifierEscaper" escaperMembers) Options.escaper fun o e =>
     { o with escaper := e }]

def sampleMembers : List (Member Bool) := [.setting "detect_uuid" readBoolean fun _ b => b]

def schemaMembers : List (Member Bool) :=
  [.setting "prefer_unsigned_integer" readBoolean fun _ b => b]

def members : List (Member Settings) :=
  [.nested "emit" (readSection "EmitOptions" emissionMembers) Settings.emission fun s o =>
     { s with emission := o },
   .nested "value" (readSection "ValueOptions" sampleMembers) Settings.detectUuid fun s b =>
     { s with detectUuid := b },
   .nested "schema" (readSection "SchemaOptions" schemaMembers) Settings.preferUnsigned fun s b =>
     { s with preferUnsigned := b }]

/-- Reads settings: those that are not written are the default ones. -/
def readSettings : Reader Settings := readSection "Config" members .default

/-- The settings in the first value of a text; nothing behind that value is looked at. -/
def Settings.ofText (text : String) : Except Malformed Settings :=
  (readSettings (.ofText text.toList)).mapError fun r =>
    ⟨r.path, r.problem, (r.site.getD .end).position text.toList⟩

inductive Failure
  | malformed (malformed : Malformed)
  | refused (refusal : Refusal)
deriving DecidableEq

def Failure.message : Failure → String
  | .malformed m => m.message
  | .refused r => r.message

def load (text : String) : Except Failure Settings :=
  match Settings.ofText text with
  | .error malformed => .error (.malformed malformed)
  | .ok settings =>
    match settings.emission.refusal? with
    | some refusal => .error (.refused refusal)
    | none => .ok settings

end SwiftModel.Config
