/-! Why a template cannot be rendered. -/
namespace TopicLoad
namespace Template

inductive Fault where
  | emptyPlaceholder
  | unterminated (source : String)
  | undefined (expression : String)
  | numberArguments
  | textArguments
  | badArgument (function argument : String)
  | emptyRange (low high : Int)
  | unknownFunction (name : String)
deriving DecidableEq, Repr

def Fault.message : Fault → String
  | .emptyPlaceholder => "empty placeholder"
  | .unterminated source => s!"unterminated placeholder in '{source}'"
  | .undefined expression => s!"undefined variable '{expression}'"
  | .numberArguments => "$randomNumber expects (min, max)"
  | .textArguments => "$randomString expects (length?)"
  | .badArgument function argument => s!"${function}: invalid argument '{argument}'"
  | .emptyRange low high => s!"$randomNumber: {low} > {high}"
  | .unknownFunction name => s!"unknown function '${name}'"

end Template
end TopicLoad
