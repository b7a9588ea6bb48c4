import DocBridge.Text

/- The version of the tools. -/
namespace DocBridge

structure Version where
  number : Text := "unknown"
  commit : Text := "unknown"
  built : Text := "unknown"
  deriving DecidableEq, Repr

def Version.text (v : Version) : Text :=
  v.number ++ " (commit " ++ v.commit ++ ", built " ++ v.built ++ ")"

end DocBridge
