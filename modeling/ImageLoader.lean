import ImageLoader.Bytes
import ImageLoader.Cancel.Guard
import ImageLoader.Cancel.Token
import ImageLoader.Codec.Basic
import ImageLoader.Codec.BitSource
import ImageLoader.Codec.Builtin
import ImageLoader.Codec.Canvas
import ImageLoader.Codec.Checksum
import ImageLoader.Codec.Container
import ImageLoader.Codec.Decoder
import ImageLoader.Codec.Farbfeld
import ImageLoader.Codec.Gif.Animation
import ImageLoader.Codec.Gif.Blocks
import ImageLoader.Codec.Gif.Lzw
import ImageLoader.Codec.Inflate
import ImageLoader.Codec.Orientation
import ImageLoader.Codec.Png.Animation
import ImageLoader.Codec.Png.Chunk
import ImageLoader.Codec.Png.Head
import ImageLoader.Codec.Png.Pixels
import ImageLoader.Codec.Png.Scanline
import ImageLoader.Codec.Pnm
import ImageLoader.Codec.PrefixCode
import ImageLoader.Codec.Qoi
import ImageLoader.Codec.Radiance
import ImageLoader.Codec.Tiff
import ImageLoader.Codec.WebP.File
import ImageLoader.Codec.WebP.Lossless
import ImageLoader.Command.Arguments
import ImageLoader.Command.Inspection
import ImageLoader.Command.Program
import ImageLoader.Command.Report
import ImageLoader.Config.Basic
import ImageLoader.Config.DotEnv
import ImageLoader.Config.Layers
import ImageLoader.Config.Summary
import ImageLoader.Config.Variable
import ImageLoader.Duration
import ImageLoader.Error
import ImageLoader.Float.Half
import ImageLoader.Float.Integral
import ImageLoader.Format.Basic
import ImageLoader.Format.Buffer
import ImageLoader.Format.Name
import ImageLoader.Format.Pixel
import ImageLoader.Format.Registry
import ImageLoader.Format.Selection
import ImageLoader.Frame.Edit
import ImageLoader.Frame.Error
import ImageLoader.Frame.Finish
import ImageLoader.Frame.Json
import ImageLoader.Frame.Raw
import ImageLoader.Frame.Request
import ImageLoader.Frame.Resample
import ImageLoader.Frame.Scaler
import ImageLoader.Frame.Sealed
import ImageLoader.Json.Basic
import ImageLoader.Json.Merge
import ImageLoader.Json.Reader
import ImageLoader.Json.Record
import ImageLoader.Json.Writer
import ImageLoader.Loader.FileTree
import ImageLoader.Loader.Image
import ImageLoader.Loader.Info
import ImageLoader.Loader.Load
import ImageLoader.Loader.Services
import ImageLoader.Loader.Source
import ImageLoader.Loader.Standard
import ImageLoader.Loader.Task
import ImageLoader.Main
import ImageLoader.Outcome
import ImageLoader.Proofs.Bytes
import ImageLoader.Proofs.Cancel.Calm
import ImageLoader.Proofs.Cancel.Guarded
import ImageLoader.Proofs.Cancel.Kept
import ImageLoader.Proofs.Cancel.Race
import ImageLoader.Proofs.Cancel.Together
import ImageLoader.Proofs.Codec.Dispatch
import ImageLoader.Proofs.Codec.Geometry
import ImageLoader.Proofs.Codec.Pictures
import ImageLoader.Proofs.Command.Choosable
import ImageLoader.Proofs.Command.Collected
import ImageLoader.Proofs.Command.Collecting
import ImageLoader.Proofs.Command.Size
import ImageLoader.Proofs.Float.Arithmetic
import ImageLoader.Proofs.Float.Canonical
import ImageLoader.Proofs.Float.Half
import ImageLoader.Proofs.Float.Order
import ImageLoader.Proofs.Float.Packing
import ImageLoader.Proofs.Float.Rounding
import ImageLoader.Proofs.Float.Single
import ImageLoader.Proofs.Format.Associated
import ImageLoader.Proofs.Format.Buffers
import ImageLoader.Proofs.Format.Channel
import ImageLoader.Proofs.Format.Choice
import ImageLoader.Proofs.Format.Conversion
import ImageLoader.Proofs.Format.Detour
import ImageLoader.Proofs.Format.Flags
import ImageLoader.Proofs.Format.Footprint
import ImageLoader.Proofs.Format.Known
import ImageLoader.Proofs.Format.Lossless
import ImageLoader.Proofs.Format.Members
import ImageLoader.Proofs.Format.Preference
import ImageLoader.Proofs.Format.Recovery
import ImageLoader.Proofs.Format.RoundTrip
import ImageLoader.Proofs.Frame.Choosable
import ImageLoader.Proofs.Frame.Composed
import ImageLoader.Proofs.Frame.Cropped
import ImageLoader.Proofs.Frame.Delivered
import ImageLoader.Proofs.Frame.Edits
import ImageLoader.Proofs.Frame.Pixmap
import ImageLoader.Proofs.Frame.Refinished
import ImageLoader.Proofs.Frame.Rescaled
import ImageLoader.Proofs.Frame.Unfailing
import ImageLoader.Proofs.Frame.Unscaled
import ImageLoader.Proofs.Frame.Unvalidated
import ImageLoader.Proofs.Frame.Words
import ImageLoader.Proofs.Image.Awaited
import ImageLoader.Proofs.Image.Call
import ImageLoader.Proofs.Image.Delivery
import ImageLoader.Proofs.Image.Outright
import ImageLoader.Proofs.Image.Retry
import ImageLoader.Proofs.Json.Forms
import ImageLoader.Proofs.Json.Grammar
import ImageLoader.Proofs.Json.Place
import ImageLoader.Proofs.Json.Record
import ImageLoader.Proofs.Json.Tokens
import ImageLoader.Proofs.Json.Written
import ImageLoader.Proofs.Loader.Agreement
import ImageLoader.Proofs.Loader.Choosable
import ImageLoader.Proofs.Loader.Handling
import ImageLoader.Proofs.Loader.Ports
import ImageLoader.Proofs.Loader.Sources
import ImageLoader.Proofs.Names
import ImageLoader.Proofs.Numerals
import ImageLoader.Proofs.Rows
import ImageLoader.Sandbox.Policy
import ImageLoader.Sandbox.Selector
import ImageLoader.Text.Blank
import ImageLoader.Text.Decimal
import ImageLoader.Toml.Document
import ImageLoader.Toml.Scalar
import ImageLoader.Toml.Table
import ImageLoader.Toml.Text
