import PngDecode.Lib.Lts
import PngDecode.Lib.Bytes
import PngDecode.Lib.RunningSum
import PngDecode.Lib.Fallible
import PngDecode.Lib.StreamDecoder
import PngDecode.Lib.Prediction
import PngDecode.Zlib.X86
import PngDecode.Zlib.AdlerSums
import PngDecode.Zlib.AdlerSimd
import PngDecode.Zlib.Adler32
import PngDecode.Zlib.Crc32
import PngDecode.Zlib.Stored
import PngDecode.Libpng.Types
import PngDecode.Libpng.State
import PngDecode.Libpng.Chunks
import PngDecode.Libpng.Header
import PngDecode.Decoder.Skia
import PngDecode.Libpng.Transform
import PngDecode.Libpng.Pixels
import PngDecode.Libpng.Rows
import PngDecode.Libpng.Combine
import PngDecode.Libpng.Encode
import PngDecode.Libpng.Filters
import PngDecode.Libpng.Sse2
import PngDecode.Libpng.Write
import PngDecode.Decoder.Callbacks
import PngDecode.Libpng.ProcessRow
import PngDecode.Libpng.Push
import PngDecode.Libpng.FileFormat
import PngDecode.Decoder.Decode
import PngDecode.Decoder.Info
import PngDecode.Decoder.HandedRows
import PngDecode.Decoder.RowGuard
import PngDecode.Decoder.Passes
import PngDecode.Decoder.Scanline
import PngDecode.Decoder.Positions
import PngDecode.Decoder.Interlace
import PngDecode.Decoder.ImageData
import PngDecode.Decoder.Reader
import PngDecode.Decoder.Runs
import PngDecode.Decoder.Safety
import PngDecode.Decoder.Tokens
import PngDecode.Decoder.Truncation
import PngDecode.Decoder.Inflated
import PngDecode.Decoder.Parsed
import PngDecode.Decoder.Delivery
import PngDecode.Decoder.Written
import PngDecode.Decoder.RoundTrip
import PngDecode.Decoder.Formats
import PngDecode.Decoder.OutputFormats
