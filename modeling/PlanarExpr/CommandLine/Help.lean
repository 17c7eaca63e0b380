import PlanarExpr.Builtin.Reference

namespace PlanarExpr.CommandLine

/-!
# Help and listings

The texts that tell how the command line is used and what an expression may
use.
-/

/-- Lines, each with its line feed. -/
def ofLines (lines : List String) : String :=
  String.join (lines.map (· ++ "\n"))

/-- How the program is called. -/
def usage : String :=
  "usage: poseval [-h] [-v] [--json] [--list] [expression ...]"

/-- The help that is shown on request. -/
def helpLines : List String :=
  [
    usage,
    "",
    "Evaluate a Java-style 2D geometry expression and print the result.",
    "",
    "positional arguments:",
    "  expression     Expression to evaluate (words are joined with spaces)",
    "",
    "options:",
    "  -h, --help     show this help message and exit",
    "  -v, --verbose  Log debug output to stderr",
    "  --json         Print the result as JSON",
    "  --list         List the available constructors, functions, constants and",
    "                 methods",
    "",
    "Supported: number literals, + - * /, parentheses, unary signs,",
    "new Rotation2d/Translation2d/Pose2d(...), Rotation2d.fromDegrees(...),",
    "Math functions, named constants and getter chains such as .getX().",
    "Use --list to see everything that can be called."
  ]

/-- Everything that an expression may construct, call or look up. -/
def listingLines : List String :=
  "Constructors:" ::
      Registry.constructorNames.map (fun name => "  new " ++ name ++ "(...)") ++
    "Functions:" ::
      Registry.functionNames.map (fun name => "  " ++ name ++ "(...)") ++
    "Constants:" ::
      Registry.constantNames.map (fun name => "  " ++ name) ++
    "Methods:" ::
      (Registry.methodNames none).map fun (kind, names) =>
        "  " ++ kind.text ++ ": " ++ String.intercalate ", " names

end PlanarExpr.CommandLine
