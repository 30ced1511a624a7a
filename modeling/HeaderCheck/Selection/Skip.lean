import HeaderCheck.Path.Basic

/-! Paths that are never checked: those that contain a skip fragment anywhere, in the part above
the root too. -/

namespace HeaderCheck

def skipFragments : List Text :=
  ["Godeps", "third_party", "_gopath", "_output", ".git", "vendor", "__init__.py", "node_modules",
    "bazel-out", "external", "3rdparty"].map String.toList

def Path.isSkipped (p : Path) (fragments : List Text) : Bool :=
  fragments.any fun fragment => Text.hasFragment p.text fragment

end HeaderCheck
