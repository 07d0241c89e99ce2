/-! The settings of a conversion. Both numbers are positive. -/

namespace DocMarkdown

def Config.defaultIndentWidth : Nat := 4

def Config.defaultMaxFileSize : Nat := 10485760

/-- `strict` makes a refused document a failure; otherwise it is reported and what was
written before the fault is kept. `maxFileSize` counts bytes. -/
structure Config where
  indentWidth : Nat := Config.defaultIndentWidth
  strict : Bool := false
  maxFileSize : Nat := Config.defaultMaxFileSize
  indentWidth_pos : 0 < indentWidth := by decide
  maxFileSize_pos : 0 < maxFileSize := by decide

theorem Config.defaultIndentWidth_pos : 0 < Config.defaultIndentWidth := by decide

theorem Config.defaultMaxFileSize_pos : 0 < Config.defaultMaxFileSize := by decide

end DocMarkdown
