/- source: none(language runtime)
   digest: The exact instant of a timestamp with up to nine fractional digits, in nanoseconds. -/

import Kratos.Foundation.Calendar

set_option autoImplicit false

namespace Kratos.Foundation.Instants

open Foundation.Text Foundation.Calendar
open Foundation.JsonText (digitsValue)

/-- The nanoseconds of a fraction: its first nine digits, the missing ones zero. -/
def fractionNanos (digits : JsString) : Nat := digitsValue ((digits ++ js "00000000").take 9)

/-- The instant of `YYYY-MM-DDThh:mm:ss[.f]Z` in nanoseconds: that of its whole second and its
fraction. -/
def instantOf (timestamp : JsString) : Option Int :=
  (dateParse (timestamp.take 19 ++ js "Z")).map fun whole =>
    whole * 1000000 + fractionNanos ((timestamp.drop 20).takeWhile isDigit)

example : instantOf (js "1970-01-01T00:00:01.000000002Z") = some 1000000002 := by decide +kernel

end Kratos.Foundation.Instants
