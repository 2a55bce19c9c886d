import StyleTypings.Classes.Selector
import StyleTypings.Stylesheet.Tree

/-!
# Exported classes

A style sheet exports the local classes of its rules, each once, in the order in
which they first occur. Rules inside keyframes are positions in an animation and
export nothing.
-/

namespace StyleTypings
namespace Exported

mutual

/-- The local classes of a node and of everything below it, with repetitions. -/
def ofNode : Node → List Text
  | .rule selector _ _ nodes => Selector.classes selector ++ ofForest nodes
  | .atBlock name _ _ _ nodes =>
      if isKeyframesName name then [] else ofForest nodes
  | _ => []

/-- The local classes of a forest, with repetitions. -/
def ofForest : List Node → List Text
  | [] => []
  | node :: rest => ofNode node ++ ofForest rest

end

end Exported

/-- The classes that a style sheet exports, in the order of first occurrence. -/
def Stylesheet.exported (sheet : Stylesheet) : List Text :=
  (Exported.ofForest sheet.nodes).eraseDups

end StyleTypings
