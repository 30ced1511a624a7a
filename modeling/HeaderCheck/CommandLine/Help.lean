import HeaderCheck.Text.Basic

/-! What the program says of itself. -/

namespace HeaderCheck

def helpText : Text := (String.intercalate "\n" [
  "Checks that source files start with the required license boilerplate",
  "",
  "Usage: verify-boilerplate [OPTIONS] [FILENAMES]...",
  "",
  "Arguments:",
  "  [FILENAMES]...  Files to check; every file in the repository is checked when omitted",
  "",
  "Options:",
  "  -f, --force-extension <FORCE_EXTENSION>",
  "          Check every file against this key's boilerplate (e.g. \"sh\" for extensionless scripts)",
  "  -r, --rootdir <ROOTDIR>",
  "          Root directory of the repository (defaults to the git top level)",
  "  -b, --boilerplate-dir <BOILERPLATE_DIR>",
  "          Directory with the boilerplate files (defaults to <rootdir>/hack/boilerplate)",
  "      --any-year",
  "          Accept any 20xx copyright year instead of the one in the boilerplate",
  "  -v, --verbose",
  "          Log each checked file to stderr",
  "  -h, --help",
  "          Print help",
  "  -V, --version",
  "          Print version",
  ""]).toList

def versionText : Text := "verify-boilerplate 0.1.0\n".toList

end HeaderCheck
