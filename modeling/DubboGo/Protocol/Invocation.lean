import DubboGo.Go.Panic
import DubboGo.Go.Text

/-!
# Invocations

`RPCInvocation` of `protocol/invocation/rpcinvocation.go`, with the fields that routers use.
-/

namespace DubboGo.Protocol

open Go

/-- The value of an attachment: a string, a list of strings (as the triple protocol wraps them) or
something else. -/
inductive Attachment where
  | text (s : Str)
  | texts (l : List Str)
  | other
  deriving DecidableEq

inductive Attribute where
  | texts (l : List Str)
  | other
  deriving DecidableEq

/-- `RPCInvocation`.  An argument is what `fmt.Sprint` makes of it.  A nil map of attachments reads as an empty one;
the map of attributes is nil in an invocation that was not made by a constructor. -/
structure RPCInvocation where
  methodName : Str
  arguments : List Str
  attachments : Str → Option Attachment
  attributes : Option (Str → Option Attribute)

namespace RPCInvocation

/-- `NewRPCInvocation`. -/
def new (methodName : Str) (arguments : List Str) (attachments : Str → Option Attachment) : RPCInvocation :=
  ⟨methodName, arguments, attachments, some fun _ => none⟩

variable (r : RPCInvocation)

def getAttachment (key : Str) : Option Str :=
  match r.attachments key with
  | some (.text s) => some s
  | some (.texts (s :: _)) => some s
  | _ => none

def getAttachmentWithDefaultValue (key defaultValue : Str) : Str :=
  (r.getAttachment key).getD defaultValue

def setAttachment (key : Str) (value : Attachment) : RPCInvocation :=
  { r with attachments := Function.update r.attachments key (some value) }

/-- `Attributes()[key]`. -/
def attributeAt (key : Str) : Option Attribute := r.attributes.bind fun m => m key

/-- `Attributes()[key] = value`. -/
def assignAttribute (key : Str) (value : Attribute) : Except RuntimeError RPCInvocation :=
  match r.attributes with
  | some m => .ok { r with attributes := some (Function.update m key (some value)) }
  | none => .error .nilMap

/-- `delete(Attributes(), key)`. -/
def deleteAttribute (key : Str) : RPCInvocation :=
  { r with attributes := r.attributes.map fun m => Function.update m key none }

end RPCInvocation

end DubboGo.Protocol
