import MetricRelay.Program

/-!
# The console

A server can be spoken to by lines of text.  Each line is a request: a method, an address and what
is sent, with a space between them.  It is answered by a line with the status and the content of the
response.

Main definitions:

- `Console.request` and `Console.answer`: a line as a request, and a response as a line.
- `Console.step`: a server after one line.
- `Console.host`: the host of a program that is only given its configuration.
-/

namespace MetricRelay.Console

open Http (Request Response)

/-- A line without the characters that end it. -/
def content (line : String) : List Char :=
  (line.toList.reverse.dropWhile fun c => c = '\n' || c = '\r').reverse

/-- The request on a line. -/
def request (line : String) : Request :=
  let (method, rest) := Text.cutAt ' ' (content line)
  let (address, body) := Text.cutAt ' ' (rest.getD [])
  { method := String.ofList method
    address := String.ofList address
    headers := []
    body := Utf8.encodeChars (body.getD []) }

/-- The line for a response. -/
def answer (r : Response) : String := natText r.status ++ " " ++ r.body

/-- The line that answers a line, and the server afterwards. -/
def step (s : Program.Serving) (line : String) : String × Program.Serving :=
  let (response, server, host) := s.server.answer s.host (request line)
  (answer response, { s with server := server, host := host })

/-- Whether a line ends the configuration before it. -/
def endsDocument (line : String) : Bool := content line = ['.', '.', '.']

/-- The host of a program that is only given its configuration, in a file of some name. -/
def host (name config : String) : Host :=
  let disk := Disk.withDirectory []
  .ofDisk ((disk.write name (Utf8.encode config)).toOption.getD disk)

end MetricRelay.Console
