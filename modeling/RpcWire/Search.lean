import RpcWire.Text.Lowercase

/-! Searching a corpus for the documents that contain a text, whatever the case of its letters, page by page. -/
namespace RpcWire

namespace Search

/-- Pages count from one; a lower number asks for the first. A page size below one asks for the usual one. -/
structure Request where
  query : String := ""
  pageNumber : Int32 := 0
  resultPerPage : Int32 := 0
  deriving DecidableEq, Repr

/-- One page of matches, and how many there are on all pages. -/
structure Response where
  results : List String := []
  total : Int32 := 0
  deriving DecidableEq, Repr

def usualPageSize : Nat := 10

/-- Whether `needle` stands somewhere in a text. -/
def occursIn (needle : List Char) : List Char → Bool
  | [] => needle.isEmpty
  | c :: rest => needle.isPrefixOf (c :: rest) || occursIn needle rest

/-- Whether a document contains the query once `lower` has put both in lower case. -/
def isMatchBy (lower : String → String) (query document : String) : Bool :=
  occursIn (lower query).toList (lower document).toList

/-- The documents that match, in the order of the corpus. -/
def hitsBy (lower : String → String) (corpus : List String) (query : String) : List String :=
  corpus.filter (isMatchBy lower query)

def Request.pageSize (request : Request) : Nat :=
  if request.resultPerPage < 1 then usualPageSize else request.resultPerPage.toInt.toNat

/-- How many pages come before the one asked for. -/
def Request.pagesBefore (request : Request) : Nat :=
  request.pageNumber.toInt.toNat - 1

/-- The page asked for. A count too large to be told is told as the largest that can be. -/
def runBy (lower : String → String) (corpus : List String) (request : Request) : Response :=
  let found := hitsBy lower corpus request.query
  { results := (found.drop (request.pagesBefore * request.pageSize)).take request.pageSize
    total := Int32.ofNat (min found.length 2147483647) }

/-- The documents that match in full lower case. -/
def hits (corpus : List String) (query : String) : List String := hitsBy Lowercase.ofString corpus query

/-- The page asked for of the documents that match in full lower case. -/
def run (corpus : List String) (request : Request) : Response := runBy Lowercase.ofString corpus request

/-- The corpus searched where no other is given. -/
def builtinCorpus : List String :=
  ["Thrift binary protocol", "Thrift compact protocol", "Framed transport", "Header transport",
    "Connection pooling", "Request cancellation", "Protocol auto-detection", "Varint and zigzag encoding"]

end Search
end RpcWire
