/-!
# The last component of a path

Both paths of files and names of programs are shortened to what follows their
last slash.  The cut is the same for characters and for raw bytes, so it is
defined once for lists.
-/

namespace GatedLog.Text

/-- The longest tail of a list in which the separator does not occur. -/
def afterLast
    {Element : Type}
    [DecidableEq Element]
    (separator : Element)
    (elements : List Element) :
    List Element :=
  (elements.reverse.takeWhile fun element => element ≠ separator).reverse

/-- The part of a path after its last slash; all of it if there is no slash. -/
def basename (path : String) : String :=
  String.ofList (afterLast '/' path.toList)

end GatedLog.Text
