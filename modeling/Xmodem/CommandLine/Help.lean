/-!
# Help texts

What is printed for a user who asks for help, on the program and on its command.
-/

namespace Xmodem.CommandLine

def programHelp : String := "XMODEM (checksum) file receiver for RS-232 links

Usage: xmrecv [OPTIONS] --port <PORT> <COMMAND>

Commands:
  receive  Receive a single file using XMODEM

Options:
  -p, --port <PORT>       Serial port to use (e.g., /dev/ttyUSB0 or COM1)
  -b, --baud <BAUD>       Baud rate [default: 115200]
      --data-bits <BITS>  Data bits (5, 6, 7, or 8) [default: 8]
      --parity <PARITY>   Parity (none, odd, or even) [default: none]
      --stop-bits <BITS>  Stop bits (1 or 2) [default: 1]
      --debug             Enable debug output (RUST_LOG overrides)
  -h, --help              Print help
"

def receiveHelp : String := "Receive a single file using XMODEM

Usage: xmrecv --port <PORT> receive [OPTIONS]

Options:
  -o, --output <OUTPUT>        File to write the received bytes to
  -c, --capacity <BYTES>       Receive buffer size in bytes [default: 1048576]
      --retries <RETRIES>      Consecutive failed attempts before giving up [default: 10]
      --start-timeout-ms <MS>  How long to wait for each block to start [default: 3000]
      --byte-timeout-ms <MS>   How long to wait for each byte inside a block [default: 250]
      --hexdump                Print a hex dump of the received bytes
  -h, --help                   Print help
"

def helpText (command : Option String) : String :=
  if command.isSome then receiveHelp else programHelp

end Xmodem.CommandLine
