/-!
# Base-64 text

Three bytes become four digits; a last group of one or two bytes is padded to four characters.
-/

namespace DocumentClient.Text

/-- The sixty-four digits in order. -/
def base64Alphabet : List Char :=
  "ABCDEFGHIJKLMNOPQRSTUVWXYZabcdefghijklmnopqrstuvwxyz0123456789+/".toList

def base64Digit (n : Nat) : Char :=
  base64Alphabet.getD (n % 64) '='

/-- The padded digits of a list of bytes. -/
def base64Chars : List UInt8 → List Char
  | a :: b :: c :: rest =>
    let n := a.toNat * 65536 + b.toNat * 256 + c.toNat
    base64Digit (n / 262144) :: base64Digit (n / 4096) :: base64Digit (n / 64) :: base64Digit n
      :: base64Chars rest
  | [a, b] =>
    let n := a.toNat * 65536 + b.toNat * 256
    [base64Digit (n / 262144), base64Digit (n / 4096), base64Digit (n / 64), '=']
  | [a] =>
    let n := a.toNat * 65536
    [base64Digit (n / 262144), base64Digit (n / 4096), '=', '=']
  | [] => []

/-- The padded base-64 text of a byte string. -/
def base64 (bytes : ByteArray) : String :=
  String.ofList (base64Chars bytes.data.toList)

example : base64Chars [1, 2, 3] = ['A', 'Q', 'I', 'D'] := by decide
example : base64Chars [0] = ['A', 'A', '=', '='] := by decide

end DocumentClient.Text
