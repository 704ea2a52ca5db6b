/-!
# Where a stream comes from or goes to

A URI names standard input or output, or a file. Other transports are refused.
-/

namespace DaqStream

/-- Why a URI names no endpoint. -/
inductive EndpointError where
  | emptyUri
  /-- A file URI without a path. -/
  | noFile (uri : String)
  /-- A transport that is not provided. -/
  | unsupportedTransport (scheme uri : String)
  deriving DecidableEq, Repr

namespace EndpointError

/-- What is said about an error. -/
def message : EndpointError → String
  | emptyUri => "Empty URI"
  | noFile uri => s!"URI '{uri}' names no file"
  | unsupportedTransport scheme uri =>
    s!"Unsupported transport '{scheme}' in URI '{uri}'. Use '-' or file:///path"

end EndpointError

/-- Where a stream comes from or goes to. -/
inductive Endpoint where
  /-- Standard input or output. -/
  | stdio
  | file (path : String)
  deriving DecidableEq, Repr

namespace Endpoint

/-- What follows `marker` in `text`, if `text` begins with it. -/
def afterMarker : (marker text : List Char) → Option (List Char)
  | [], text => some text
  | _ :: _, [] => none
  | m :: marker, c :: text => if m = c then afterMarker marker text else none

/-- The text before the first occurrence of `marker`. -/
def beforeMarker (marker : List Char) : List Char → Option (List Char)
  | [] => if marker.isEmpty then some [] else none
  | c :: text =>
    if (afterMarker marker (c :: text)).isSome then some []
    else (beforeMarker marker text).map (c :: ·)

/-- The endpoint that a URI names. -/
def parse (uri : String) : Except EndpointError Endpoint :=
  if uri = "-" then .ok .stdio
  else match afterMarker "file://".toList uri.toList with
    | some [] => .error (.noFile uri)
    | some path => .ok (.file (String.ofList path))
    | none =>
      match beforeMarker "://".toList uri.toList with
      | some scheme => .error (.unsupportedTransport (String.ofList scheme) uri)
      | none => if uri = "" then .error .emptyUri else .ok (.file uri)

end Endpoint

end DaqStream
