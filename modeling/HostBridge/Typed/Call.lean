import HostBridge.Typed.Record

/-!
# Method calls as values

A method call may itself be written as a value and read from one, as a record
of its method and its argument.
-/

namespace HostBridge

namespace MethodCall

/-- How a call is read from a value. -/
def record : Record MethodCall where
  name := "MethodCall"
  blank := ⟨"", .null⟩
  fields :=
    [.mandatory methodKey .string fun v call => { call with method := v },
     .optional argsKey .value fun v call => { call with args := v }]

/-- A call as a value. -/
def write (call : MethodCall) : Value :=
  .map [(methodKey, .string call.method), (argsKey, call.args.viaJson)]

end MethodCall

end HostBridge
