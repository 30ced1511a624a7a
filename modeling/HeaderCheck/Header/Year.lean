import HeaderCheck.Text.DecimalDigit

/-! Years of this century in a line: `20` and two decimal digits of any script. They are found from
the left and do not overlap, so `202020` holds one year and two digits that belong to none. -/

namespace HeaderCheck

/-- What is written in place of a year. -/
def yearMark : Text := ['Y', 'E', 'A', 'R']

/-- The line with every year replaced by the same mark. -/
def Text.maskYears : Text → Text
  | '2' :: '0' :: c :: d :: rest =>
    if isDecimalDigit c && isDecimalDigit d then yearMark ++ maskYears rest
    else '2' :: maskYears ('0' :: c :: d :: rest)
  | c :: rest => c :: maskYears rest
  | [] => []
termination_by structural t => t

end HeaderCheck
