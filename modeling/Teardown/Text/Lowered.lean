/-
# Lower case

Words compared without regard to capitals are compared in lower case. Only the
letters of ASCII have one here; every other character stands as it is.

Key definitions: `lowered`.
-/

namespace Teardown
namespace Text

/-- A text with its ASCII letters in lower case. -/
def lowered (s : String) : String := String.ofList (s.toList.map Char.toLower)

theorem toList_lowered (s : String) : (lowered s).toList = s.toList.map Char.toLower := by
  simp [lowered]

end Text
end Teardown
