import PlayerAnimation.Console.Variable

namespace PlayerAnimation.Manual

def indented (text : String) : String :=
  String.join ((text.splitOn "\n").map fun line => "  " ++ line ++ "\n")

def variableText (v : Variable) : String :=
  "\n- `" ++ v.name ++ "` (default: `\"" ++ v.initial ++ "\"`)\n\n" ++ indented v.description ++ "\n"

def byName (vs : List Variable) : List Variable :=
  vs.mergeSort fun v w => v.name.toLower ≤ w.name.toLower

def featureText (f : Feature) : String :=
  "\n## " ++ f.name ++ "\n\n" ++ f.description ++ "\n" ++
    (if f.vars.isEmpty then "" else "\n### Console Variables\n") ++
    String.join ((byName f.vars).map variableText)

def heading : String :=
  "# cod2x-rs Modules\n\n" ++
    "Each module represents a feature or a set of features of cod2x-rs. Console variables can be set " ++
    "from the game console or from a JSON config file.\n\n" ++
    "This wiki page is generated automatically with `src/bin/gen-wiki.rs`. Do not edit it by hand.\n"

def page : String :=
  heading ++
    String.join ((Feature.all.mergeSort fun f g => f.name ≤ g.name).map featureText)

end PlayerAnimation.Manual
