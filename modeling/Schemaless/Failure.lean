import Schemaless.Sql.Fault
import Schemaless.Value.Printer

/-!
# Failures

Everything that can go wrong, by its cause, and the message of each cause. A failure of the store
is wrapped with the table it happened on; a failure to dial is wrapped with the address.
-/

namespace Schemaless

/-- Why a literal has no value. -/
inductive CoercionFault where
  | unterminated (text : String)
  | notFloat (text : String)
  | notInteger (text : String)
deriving DecidableEq

/-- The message of a literal's fault. -/
def CoercionFault.message : CoercionFault → String
  | unterminated text => "unterminated string literal " ++ text
  | notFloat text => "cannot convert '" ++ text ++ "' to float"
  | notInteger text => "cannot convert '" ++ text ++ "' to integer"

/-- What is wrong with a configuration. -/
inductive ConfigFault where
  | noDatabase
  | noHost
  | badParameter (key value : String)
  | malformed
  | unreadable (path reason : String)
  | unreadableCredentials (path reason : String)
  | malformedCredentials (path : String)
deriving DecidableEq

/-- The message of a configuration's fault. -/
def ConfigFault.message : ConfigFault → String
  | noDatabase => "dbname was empty"
  | noHost => "host was empty"
  | badParameter key value => "invalid value '" ++ value ++ "' for " ++ key
  | malformed => "malformed configuration"
  | unreadable path reason => "failed to read " ++ path ++ ": " ++ reason
  | unreadableCredentials path reason => "failed to read credentials " ++ path ++ ": " ++ reason
  | malformedCredentials path => "invalid credentials " ++ path

/-- Why an operation was refused. -/
inductive InternalFault where
  | readOnly (collection : String)
  | keyChanged (field collection : String) (old new : Value)
  | notObject (table : String) (record : Value)
  | reported (reason : String)

/-- The message of a refusal. -/
def InternalFault.message : InternalFault → String
  | readOnly collection => "write to '" ++ collection ++ "' rejected: store is read-only"
  | keyChanged field collection old new =>
    "cannot change " ++ field ++ " of a document in '" ++ collection ++ "' from " ++ old.render ++
      " to " ++ new.render
  | notObject table record => "record for " ++ table ++ " is not an object: " ++ record.render
  | reported reason => reason

/-- What went wrong. -/
inductive Failure where
  | config (fault : ConfigFault)
  | refused (address : String)
  | loginRejected (address : String)
  | dialFailed (address : String) (cause : Failure)
  | parse (fault : Sql.ParseFault)
  | binding (index count : Nat)
  | unsupportedOperator (text : String)
  | coercion (fault : CoercionFault)
  | store (table : String) (cause : Failure)
  | unsupportedCapability (what : String)
  | collectionNotFound (name : String)
  | duplicateKey (collection : String) (key : Value)
  | decoding
  | internal (fault : InternalFault)

namespace Failure

/-- The message of a failure. -/
def message : Failure → String
  | config fault => "Configuration error: " ++ fault.message
  | refused address => "Failed to connect to " ++ address ++ ": connection refused"
  | loginRejected address => "Failed to connect to " ++ address ++ ": authentication failed"
  | dialFailed address cause => "Failed to connect to " ++ address ++ ": " ++ cause.message
  | parse fault => "Parse error: " ++ fault.message
  | binding index count =>
    "Parameter index " ++ toString index ++ " out of bounds for " ++ toString count ++ " parameters"
  | unsupportedOperator text => "Unsupported operator: " ++ text
  | coercion fault => "Coercion error: " ++ fault.message
  | store table cause => "Store operation on " ++ table ++ " failed: " ++ cause.message
  | unsupportedCapability what => "Capability not supported: " ++ what
  | collectionNotFound name => "Collection '" ++ name ++ "' not found"
  | duplicateKey collection key =>
    "Duplicate key " ++ key.render ++ " in collection '" ++ collection ++ "'"
  | decoding => "JSON error: the row does not fit the record"
  | internal fault => "Internal error: " ++ fault.message

/-- The failure inside a wrapped one. -/
def cause? : Failure → Option Failure
  | store _ cause => some cause
  | _ => none

end Failure

end Schemaless
