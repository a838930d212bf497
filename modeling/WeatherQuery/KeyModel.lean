import WeatherQuery.CText

/-!
The two programs that make a city's key: `UncodeTostr` of the crawler, and `find` and
`ParseStr` of the CGI, which looks the key up.
-/

namespace WeatherQuery.KeyModel

open WeatherQuery.CText

/-! ### The crawler -/

/-- The first loop of `UncodeTostr`: `%x` of every character, each in its row of
`char buf[20][30]`. -/
def printRows (inp : Bytes) : List Bytes :=
  (List.range (strlen inp)).foldl
    (fun buf i => buf.set i (strcpy (buf.getD i []) (hex (promote (inp.getD i 0)))))
    (List.replicate 20 (List.replicate 30 0))

/-- The inner loop of the second: the first nine bytes of a row, less every `f` and NUL. -/
def copyRow (row : Bytes) (st : ℕ × Bytes) : ℕ × Bytes :=
  (List.range 9).foldl
    (fun st j =>
      if row.getD j 0 ≠ 'f'.toUInt8 ∧ row.getD j 0 ≠ 0 then put st (row.getD j 0) else st) st

/-- The second loop: the rows of at least eight characters, onto `out`. -/
def copyRows (buf : List Bytes) (out : Bytes) : Bytes :=
  ((List.range 20).foldl
    (fun st i => if 8 ≤ strlen (buf.getD i []) then copyRow (buf.getD i []) st else st)
    (0, out)).2

/-- `if(out[i] > '9') out[i] &= ~0x20`. -/
def upper (c : UInt8) : UInt8 := if promote c > 57 then c &&& ~~~ 0x20 else c

/-- The third loop. -/
def upcase (out : Bytes) : Bytes :=
  forLoop (fun i out => i < strlen out) (fun i out => out.set i (upper (out.getD i 0)))
    out.length 0 out

def uncodeTostr (inp out : Bytes) : Bytes := upcase (copyRows (printRows inp) out)

/-! ### The CGI -/

/-- The scan of `find` for the first `=`; the rest of the string is what it points to. -/
def afterEq : Bytes → Option Bytes
  | [] => none
  | c :: r => if c = 0 then none else if c = '='.toUInt8 then some r else afterEq r

/-- `find`; without an `=` it copies from a NULL pointer, here `none`. -/
def find (dataString str : Bytes) : Option Bytes := (afterEq dataString).map (strcpy str)

/-- `ParseStr`: the string less every `%`, in place. The bound `strlen(str)+1` is read again
before every turn, while `str` is overwritten. -/
def parseStr (str : Bytes) : Bytes :=
  (forLoop (fun i (st : ℕ × Bytes) => i < strlen st.2 + 1)
    (fun i st => if st.2.getD i 0 ≠ '%'.toUInt8 then put st (st.2.getD i 0) else st)
    (str.length + 1) 0 (0, str)).2

/-- The key the CGI looks up for a query string, with `str` as `main` leaves it. -/
def queryKey (query str : Bytes) : Option Bytes := (find query str).map fun s => cstr (parseStr s)

/-- The key the crawler stores for a city name read into `city_name`, with `out` as it was. -/
def crawlKey (cityName out : Bytes) : Bytes := cstr (uncodeTostr cityName out)

end WeatherQuery.KeyModel
