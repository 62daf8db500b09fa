import Switchboard.Digest.Base64
import Switchboard.Digest.Hmac
import Switchboard.Fault
import Switchboard.Text.Utf8
/-! # Signatures of callbacks

The provider signs the address of a callback, followed by its parameters in the order of their names, with
a secret it shares with the service.
-/
namespace Switchboard.Signature

def sortedParameters (parameters : List (String × String)) : List (String × String) :=
  parameters.mergeSort fun p q => !decide (q.1 < p.1)

def parameterText (parameters : List (String × String)) : String :=
  String.join ((sortedParameters parameters).map fun p => p.1 ++ p.2)

def sign (token url : String) (parameters : List (String × String)) : String :=
  String.ofList (Digest.encodeBase64
    (Digest.hmac (Text.bytesOf token.toList) (Text.bytesOf (url ++ parameterText parameters).toList)))

def signText (token url : Text) (parameters : List (String × String)) : Outcome String :=
  match token, url with
  | .plain token, .plain url => .ok (sign token url parameters)
  | .plain _, url => .error (.unencodable (url ++ parameterText parameters))
  | token, _ => .error (.unencodable token)

/-- The signature for values that should be texts. A list has no bytes, but parameters can follow it; other
values cannot even be followed by one. -/
def signAt (token url : Value) (parameters : List (String × String)) : Outcome String :=
  match url, token with
  | .str url, .str token => signText token url parameters
  | .str _, token => .error (.noPart token.kind "encode")
  | .arr _, _ => .error (.noPart .arr "encode")
  | url, _ => .error (if parameters.isEmpty then .noPart url.kind "encode" else .notText url.kind)

/-- Whether a callback carries its signature. A signature outside of ASCII cannot be compared. -/
def verify (token url : Text) (parameters : List (String × String)) (signature : Option String) :
    Outcome Bool :=
  match signature.filter (· != "") with
  | none => .ok false
  | some signature => do
    let expected ← signText token url parameters
    if signature.toList.all fun c => c.toNat < 128 then return expected == signature
    else throw .foreignSignature

def verifyAt (token url : Value) (parameters : List (String × String)) (signature : Value) : Outcome Bool := do
  if !signature.truthy then return false
  let expected ← signAt token url parameters
  match signature with
  | .str (.plain s) =>
    if s.toList.all fun c => c.toNat < 128 then return expected == s else throw .foreignSignature
  | .str _ => throw .foreignSignature
  | v => throw (.notText v.kind)

end Switchboard.Signature
