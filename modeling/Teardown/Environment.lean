/-
# Environments

The variables a program is started with. A value is a sequence of bytes; one
that is not UTF-8 counts as unset wherever text is expected.

Key definitions: `Environment`, `Environment.text?`.
-/

namespace Teardown

/-- The value of each variable that is set. -/
abbrev Environment := String → Option ByteArray

/-- The text of a variable. -/
def Environment.text? (env : Environment) (name : String) : Option String :=
  (env name).bind String.fromUTF8?

end Teardown
