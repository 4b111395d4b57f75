import RpcWire.Bytes.Word

/-! Text as octets: every text has one form, and octets that form no text are refused. -/
namespace RpcWire.Utf8

def encode (text : String) : Bytes :=
  text.toUTF8.data.toList

/-- The text that the octets spell, if they spell one. -/
def decode? (bytes : Bytes) : Option String :=
  String.fromUTF8? bytes.toByteArray

end RpcWire.Utf8
