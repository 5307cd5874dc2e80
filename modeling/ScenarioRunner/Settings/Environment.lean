import ScenarioRunner.Fault

/-!
# Environments

Named variables in the order in which they were first set; each name has one value.
-/

namespace ScenarioRunner.Settings

set_option autoImplicit false

abbrev Environment := List (String × String)

def Environment.get? (env : Environment) (name : String) : Option String :=
  env.lookup name

def Environment.set : Environment → String → String → Environment
  | [], name, value => [(name, value)]
  | (first, old) :: rest, name, value =>
    if first = name then (name, value) :: rest else (first, old) :: Environment.set rest name value

/-- The later environment wins. -/
def Environment.update (env later : Environment) : Environment :=
  later.foldl (fun all entry => all.set entry.1 entry.2) env

/-- The system takes no null character in a variable, and no equals sign in its name. -/
def checkVariable (name value : String) : Except Fault Unit :=
  if name.toList.contains '\x00' || value.toList.contains '\x00' then .error .nullCharacter
  else if name.toList.contains '=' then .error .equalsInVariableName
  else .ok ()

def Environment.complete : Environment → Environment → Environment × Except Fault Unit
  | env, [] => (env, .ok ())
  | env, (name, value) :: more =>
    if (env.get? name).isSome then env.complete more
    else
      match checkVariable name value with
      | .error fault => (env, .error fault)
      | .ok () => (env.set name value).complete more

end ScenarioRunner.Settings
