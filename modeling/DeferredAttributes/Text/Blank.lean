-- White space, and what trimming and splitting do with it.
namespace DeferredAttributes.Text

-- The property White_Space.
def isBlank (c : Char) : Bool :=
  let n := c.toNat
  (9 ≤ n && n ≤ 13) || n == 0x20 || n == 0x85 || n == 0xa0 || n == 0x1680 ||
  (0x2000 ≤ n && n ≤ 0x200a) || n == 0x2028 || n == 0x2029 || n == 0x202f ||
  n == 0x205f || n == 0x3000

def trimLeft (cs : List Char) : List Char := cs.dropWhile isBlank

def trim (cs : List Char) : List Char :=
  (trimLeft (trimLeft cs).reverse).reverse

def words : List Char → List (List Char)
  | [] => []
  | c :: cs =>
    if isBlank c then words cs else
    match cs with
    | [] => [[c]]
    | d :: _ =>
      if isBlank d then [c] :: words cs else
      match words cs with
      | [] => [[c]]
      | word :: rest => (c :: word) :: rest

def bytes : List Char → Nat
  | [] => 0
  | c :: cs => c.utf8Size + bytes cs

theorem bytes_append (left right : List Char) : bytes (left ++ right) = bytes left + bytes right := by
  induction left with
  | nil => simp [bytes]
  | cons c cs ih => simp only [List.cons_append,bytes,ih]; omega

def splitOnce? (separator : List Char) : List Char → Option (List Char × List Char)
  | [] => if separator.isEmpty then some ([],[]) else none
  | c :: cs =>
    if separator.isPrefixOf (c :: cs) then some ([],(c :: cs).drop separator.length) else
    (splitOnce? separator cs).map fun (before,after) => (c :: before,after)

end DeferredAttributes.Text
