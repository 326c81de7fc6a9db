/-
# Help

What the program tells of itself and of its commands.
-/
import HookPool.CommandLine.Options

namespace HookPool
namespace CommandLine

/-- The version of the program. -/
def versionLine : String := "hookfs 0.1.0"

/-- The help on a place of the command line. -/
def helpLines : Scope → List String
  | .top =>
    ["Lua-scripted filesystem hooks", "", "Usage: hookfs [OPTIONS] <COMMAND>", "", "Commands:",
      "  check   Load a script and list the filesystem hooks it defines",
      "  stress  Call one hook from many threads through a context manager",
      "  help    Print this message or the help of the given subcommand(s)", "", "Options:",
      "  -v, --verbose  Enable verbose logging", "  -h, --help     Print help",
      "  -V, --version  Print version"]
  | .check =>
    ["Load a script and list the filesystem hooks it defines", "",
      "Usage: hookfs check [OPTIONS] <SCRIPT>", "", "Arguments:",
      "  <SCRIPT>  Path to the Lua script", "", "Options:",
      "      --name <NAME>  Chunk name used in error messages (defaults to the path)",
      "  -v, --verbose      Enable verbose logging", "  -h, --help         Print help"]
  | .stress =>
    ["Call one hook from many threads through a context manager", "",
      "Usage: hookfs stress [OPTIONS] <SCRIPT>", "", "Arguments:",
      "  <SCRIPT>  Path to the Lua script", "", "Options:",
      "      --hook <HOOK>                Hook to call [default: getattr]",
      "      --arg <ARGS>                 Arguments passed to the hook (integers are passed as numbers)",
      "  -t, --threads <THREADS>          Number of caller threads [default: 4]",
      "  -c, --calls <CALLS>              Calls per thread [default: 100]",
      "      --single                     Share one persistent context instead of a pool",
      "      --config <CONFIG>            JSON file with start_count / max_active / max_idle",
      "      --start-count <START_COUNT>  Contexts built before the first call [env: HOOKFS_START_COUNT=]",
      "      --max-active <MAX_ACTIVE>    Maximum contexts checked out at once [env: HOOKFS_MAX_ACTIVE=]",
      "      --max-idle <MAX_IDLE>        Maximum idle contexts kept for reuse [env: HOOKFS_MAX_IDLE=]",
      "  -v, --verbose                    Enable verbose logging",
      "  -h, --help                       Print help"]

end CommandLine
end HookPool
