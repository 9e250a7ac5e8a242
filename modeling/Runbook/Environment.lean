set_option autoImplicit false

/-!
Environments: the named texts that a program is started with.
-/
namespace Runbook

/-- The names and values of an environment, in their order. -/
abbrev Environment := List (String × String)

/-- The value of a name; an environment has one value for a name. -/
def Environment.get? (env : Environment) (name : String) : Option String :=
  env.lookup name

end Runbook
