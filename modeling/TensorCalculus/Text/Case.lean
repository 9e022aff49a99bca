/-!
# Lower case

Names are compared in lower case. Besides the capital letters only the Kelvin sign has a lower case
form among the plain letters, which is k. -/

namespace TensorCalculus.Text

/-- Lower case as far as it can produce a plain letter; every other character stays. -/
def lowerChar (c : Char) : Char :=
  if c.toNat = 0x212A then 'k' else c.toLower

def lower (s : String) : String :=
  String.ofList (s.toList.map lowerChar)

@[simp]
theorem toList_lower (s : String) : (lower s).toList = s.toList.map lowerChar := by
  simp [lower]

end TensorCalculus.Text
